import PbMapper.Relay.Iterations

/-!
# Stream counters

A namespace is charged for every pending stream.  The counter goes up when an
entry is made for an identity that has none, and down when an entry is removed,
by the namespace of the removed entry; so counter and entries agree as long as
no entry is overwritten by a subscription of another namespace.
-/

namespace PbMapper.Relay

open RelayState

namespace Manager

section Counting

variable (manager : Manager) (nameSpace : UInt64)

/-- The streams a namespace is charged for. -/
def streamCount : ℕ := (manager.namespaceStreamCounts.lookup nameSpace).getD 0

/-- The pending streams of a namespace. -/
def pendingIn : ℕ :=
  Table.count manager.pendingStreams fun stream =>
    keyNamespace stream.key == nameSpace

/-- The pending streams of a namespace, without those of one connection. -/
def pendingOthers (connId : RemoteConnId) : ℕ :=
  Table.count (manager.pendingStreams.erase connId) fun stream =>
    keyNamespace stream.key == nameSpace

/-- The connection has a pending stream in the namespace. -/
def holdsStream (connId : RemoteConnId) : Bool :=
  (manager.pendingStreams.lookup connId).any fun stream =>
    keyNamespace stream.key == nameSpace

variable {manager nameSpace}

theorem pendingIn_eq (connId : RemoteConnId) :
    manager.pendingIn nameSpace = manager.pendingOthers nameSpace connId +
      (if manager.holdsStream nameSpace connId then 1 else 0) := by
  rw [holdsStream]
  cases hlookup : manager.pendingStreams.lookup connId with
  | none =>
      rw [pendingOthers, Table.count_erase_of_lookup_eq_none hlookup]
      rfl
  | some stream => exact (Table.count_erase_add hlookup).symm

end Counting

/-! ## Operations on the counters -/

section Operations

variable {manager : Manager} {nameSpace : UInt64}

theorem streamCount_decrement (counts : Table UInt64 ℕ) (other : UInt64) :
    ((decrementNamespaceStreamCount counts other).lookup nameSpace).getD 0 =
      (counts.lookup nameSpace).getD 0 -
        (if nameSpace = other then 1 else 0) := by
  unfold decrementNamespaceStreamCount
  cases hlookup : counts.lookup other with
  | none =>
      dsimp only
      split
      · rename_i heq
        rw [heq, hlookup]
        rfl
      · rfl
  | some count =>
      dsimp only
      split
      · rename_i hzero
        rw [Table.lookup_erase]
        split
        · rename_i heq
          rw [heq, hlookup, Option.getD_none, Option.getD_some, hzero]
        · rfl
      · rw [Table.lookup_insert]
        split
        · rename_i heq
          rw [heq, hlookup, Option.getD_some, Option.getD_some]
        · rfl

/-- Counters and entries agree. -/
def Counted (manager : Manager) : Prop :=
  ∀ nameSpace, manager.streamCount nameSpace = manager.pendingIn nameSpace

theorem Counted.congr {after : Manager} (hcounted : manager.Counted)
    (hpending : after.pendingStreams = manager.pendingStreams)
    (hcounts : after.namespaceStreamCounts = manager.namespaceStreamCounts) :
    after.Counted := by
  intro nameSpace
  rw [streamCount, pendingIn, hpending, hcounts]
  exact hcounted nameSpace

theorem pendingIn_removePendingStream {clientId : RemoteConnId}
    {removed : PendingStream}
    (hlookup : manager.pendingStreams.lookup clientId = some removed) :
    (manager.removePendingStream clientId).pendingIn nameSpace =
      manager.pendingIn nameSpace -
        (if keyNamespace removed.key = nameSpace then 1 else 0) := by
  have hadd : manager.pendingIn nameSpace = _ :=
    (Table.count_erase_add hlookup).symm
  rw [removePendingStream, hlookup, hadd, pendingIn]
  simp

theorem Counted.removePendingStream (hcounted : manager.Counted)
    (clientId : RemoteConnId) :
    (manager.removePendingStream clientId).Counted := by
  cases hlookup : manager.pendingStreams.lookup clientId with
  | none =>
      rw [Manager.removePendingStream, hlookup]
      exact hcounted
  | some removed =>
      intro nameSpace
      rw [pendingIn_removePendingStream hlookup, ← hcounted nameSpace,
        streamCount, Manager.removePendingStream, hlookup]
      dsimp only
      rw [streamCount_decrement, streamCount]
      simp only [eq_comm]

theorem pendingIn_pendStream (subscription : Subscription)
    (candidate : ServerConnInfo) :
    (manager.pendStream subscription candidate).pendingIn nameSpace =
      manager.pendingOthers nameSpace subscription.connId +
        (if keyNamespace subscription.key = nameSpace then 1 else 0) := by
  rw [pendingIn, pendStream, Table.count_insert, pendingOthers]
  simp

/-- A new pending stream is charged, unless it replaces one of its own
namespace. -/
theorem Counted.pendStream (hcounted : manager.Counted)
    (subscription : Subscription) (candidate : ServerConnInfo)
    (hsame : ∀ stream ∈ manager.pendingStreams.lookup subscription.connId,
      keyNamespace stream.key = keyNamespace subscription.key) :
    (manager.pendStream subscription candidate).Counted := by
  intro nameSpace
  have hbefore := hcounted nameSpace
  rw [pendingIn_eq subscription.connId, holdsStream] at hbefore
  rw [pendingIn_pendStream]
  cases hlookup : manager.pendingStreams.lookup subscription.connId with
  | none =>
      rw [hlookup] at hbefore
      simp only [streamCount, Manager.pendStream, hlookup, Option.isNone_none,
        if_true, Table.lookup_insert]
      split
      · rename_i heq
        subst heq
        simpa [streamCount] using hbefore
      · rename_i hne
        rw [if_neg (Ne.symm hne)]
        simpa [streamCount] using hbefore
  | some stream =>
      have heq := hsame stream hlookup
      rw [hlookup] at hbefore
      simp only [streamCount, Manager.pendStream, hlookup, Option.isNone_some,
        Bool.false_eq_true, if_false]
      simpa [heq, streamCount] using hbefore

/-- What a task does to the pending streams and their counters: only the
deregistration of a subscriber removes an entry. -/
theorem handle_charges (settings : Settings) (now : Instant)
    (task : ManagerTask) :
    let after := (manager.handle settings now task).1
    let removed := match task with
      | .deRegisterClientConn _ clientId => manager.removePendingStream clientId
      | _ => manager
    after.pendingStreams = removed.pendingStreams ∧
      after.namespaceStreamCounts = removed.namespaceStreamCounts := by
  have hrelease : ∀ (before : Manager) (nameSpace : UInt64),
      (before.releaseNamespaceRateLimitIfIdle nameSpace).pendingStreams =
          before.pendingStreams ∧
        (before.releaseNamespaceRateLimitIfIdle
          nameSpace).namespaceStreamCounts = before.namespaceStreamCounts := by
    intro before nameSpace
    unfold releaseNamespaceRateLimitIfIdle
    dsimp only
    split <;> exact ⟨rfl, rfl⟩
  cases task with
  | accept | serverConnActivity | status | shutdown => exact ⟨rfl, rfl⟩
  | register key connId needCodec isDatagram protocolVersion connSender =>
      simp only [handle, register]
      split <;> exact ⟨rfl, rfl⟩
  | subcribe key connId connSender excluded =>
      obtain ⟨limits, ⟨message, -, hsubcribe⟩ | ⟨selected, hselected,
        hsubcribe⟩⟩ := manager.subcribe_cases settings now
          ⟨key, connId, connSender, excluded⟩
      · simp [handle, hsubcribe]
      · simp only [handle, hsubcribe]
        subst hselected
        obtain ⟨hpruned, -⟩ := selectServer_cases
          { manager with namespaceRateLimits := limits }
          ⟨key, connId, connSender, excluded⟩
          (candidates ⟨key, connId, connSender, excluded⟩
            (registrations manager.serverConnMap key))
        exact ⟨hpruned.pendingStreams, hpruned.namespaceStreamCounts⟩
  | stream key stream serverId clientId serverGeneration =>
      simp only [handle, Manager.stream]
      repeat' split
      all_goals exact ⟨rfl, rfl⟩
  | streamAck serverId clientId serverGeneration =>
      simp only [handle, Manager.streamAck]
      repeat' split
      all_goals exact ⟨rfl, rfl⟩
  | deRegisterServerConn key connId => exact hrelease _ _
  | retireServerConn key connId reason => exact hrelease _ _
  | deRegisterClientConn serverId clientId =>
      simp only [handle, deRegisterClientConn]
      cases serverId <;> cases manager.pendingStreams.lookup clientId with
      | none => exact ⟨rfl, rfl⟩
      | some pending => exact hrelease _ _

/-- The rest of a task charges for the stream it makes pending. -/
theorem resume_charges (sent : Bool) (resume : Resume) :
    (∃ subscription candidate rest, sent = true ∧
        resume = .streamReq subscription candidate rest ∧
        (manager.resume sent resume).1 =
          manager.pendStream subscription candidate) ∨
      (manager.resume sent resume).1.pendingStreams =
          manager.pendingStreams ∧
        (manager.resume sent resume).1.namespaceStreamCounts =
          manager.namespaceStreamCounts := by
  cases resume with
  | done => exact .inr ⟨rfl, rfl⟩
  | subcribeResp connId => cases sent <;> exact .inr ⟨rfl, rfl⟩
  | streamReq subscription candidate rest =>
      cases sent with
      | true => exact .inl ⟨subscription, candidate, rest, rfl, rfl, rfl⟩
      | false =>
          obtain ⟨hpruned, -⟩ := selectServer_cases
            (manager.dropServerConn subscription.key candidate.connId)
            subscription rest
          exact .inr
            ⟨hpruned.pendingStreams, hpruned.namespaceStreamCounts⟩

end Operations

end Manager

/-! ## The limit -/

/-- A subscription is turned away because its namespace is full. -/
def Outcome.isStreamLimitRefusal : Outcome → Bool
  | .send ⟨_, .subcribeFailed code _ _, _⟩ =>
      code == "namespace_stream_limit_exceeded"
  | _ => false

namespace Manager

section Limit

variable (settings : Settings) (now : Instant) (manager : Manager)
  (subscription : Subscription)

/-- Whether a `Subcribe` task is turned away because its namespace is full. -/
def refusesStream : Bool :=
  (manager.handle settings now (.subcribe subscription.key subscription.connId
    subscription.connSender
      subscription.excludedServerConns)).2.isStreamLimitRefusal

/-- A retry is not turned away because its namespace is full, and a new stream is
exactly if the other connections fill it. -/
structure RetriesUncharged : Prop where
  retry : manager.holdsStream (keyNamespace subscription.key)
      subscription.connId = true →
    manager.refusesStream settings now subscription = false
  fresh : manager.holdsStream (keyNamespace subscription.key)
      subscription.connId = false →
    (manager.refusesStream settings now subscription = true ↔
      settings.maxStreamsPerNamespace ≤ manager.pendingOthers
        (keyNamespace subscription.key) subscription.connId)

variable {settings now manager subscription}

theorem not_isStreamLimitRefusal_selectServer (list : List ServerConnInfo) :
    (Outcome.send (manager.selectServer subscription
      list).2).isStreamLimitRefusal = false := by
  obtain ⟨-, ⟨reason, hout⟩ | ⟨candidate, rest, channel, -, -, hout⟩⟩ :=
    manager.selectServer_cases subscription list
  · rw [hout]
    simp only [subcribeRejected, Outcome.isStreamLimitRefusal]
    split
    · rename_i heq
      split at heq <;> cases heq
      decide
    · rfl
  · rw [hout]
    rfl

/-- The counter alone decides. -/
theorem refusesStream_iff :
    manager.refusesStream settings now subscription = true ↔
      settings.maxStreamsPerNamespace ≤
        manager.streamCount (keyNamespace subscription.key) := by
  simp only [refusesStream, handle, subcribe, streamCount]
  split
  · rename_i hfull
    simpa [Outcome.isStreamLimitRefusal] using hfull
  · rename_i hroom
    refine iff_of_false ?_ hroom
    rw [Bool.not_eq_true]
    split
    · simp only [subcribeRejected, Outcome.isStreamLimitRefusal]
      split
      · rename_i heq
        split at heq <;> cases heq
        decide
      · rfl
    · split
      · simp only [Outcome.isStreamLimitRefusal]
        decide
      · exact not_isStreamLimitRefusal_selectServer _

/-- Retries are uncharged exactly where the namespace of a retry has room for
another stream, and the counter of a new stream's namespace says whether the
others fill it. -/
theorem retriesUncharged_iff :
    manager.RetriesUncharged settings now subscription ↔
      if manager.holdsStream (keyNamespace subscription.key)
          subscription.connId then
        manager.streamCount (keyNamespace subscription.key) <
          settings.maxStreamsPerNamespace
      else
        (settings.maxStreamsPerNamespace ≤
            manager.streamCount (keyNamespace subscription.key) ↔
          settings.maxStreamsPerNamespace ≤ manager.pendingOthers
            (keyNamespace subscription.key) subscription.connId) := by
  have hrefuses : manager.refusesStream settings now subscription = true ↔ _ :=
    refusesStream_iff
  constructor
  · rintro ⟨hretry, hfresh⟩
    split
    · rename_i hholds
      rw [← not_le, ← hrefuses, hretry hholds]
      exact Bool.false_ne_true
    · rename_i hholds
      rw [← hrefuses]
      exact hfresh (Bool.eq_false_iff.mpr hholds)
  · intro hcondition
    split at hcondition
    · rename_i hholds
      refine ⟨fun _ => ?_, fun hnot => ?_⟩
      · rw [Bool.eq_false_iff, ne_eq, hrefuses, not_le]
        exact hcondition
      · rw [hholds] at hnot
        cases hnot
    · rename_i hholds
      exact ⟨fun hretry => absurd hretry hholds,
        fun _ => hrefuses.trans hcondition⟩

/-- Where counters and entries agree, only a retry in a full namespace is
charged. -/
theorem Counted.retriesUncharged_counts (hcounted : manager.Counted) :
    manager.RetriesUncharged settings now subscription ↔
      (manager.holdsStream (keyNamespace subscription.key)
          subscription.connId = true →
        manager.pendingIn (keyNamespace subscription.key) <
          settings.maxStreamsPerNamespace) := by
  have hrefuses : manager.refusesStream settings now subscription = true ↔ _ :=
    refusesStream_iff
  rw [hcounted] at hrefuses
  refine ⟨fun hfree hholds => ?_, fun hroom => ⟨fun hholds => ?_,
    fun hholds => ?_⟩⟩
  · rw [← not_le, ← hrefuses, hfree.retry hholds]
    exact Bool.false_ne_true
  · rw [Bool.eq_false_iff, ne_eq, hrefuses, not_le]
    exact hroom hholds
  · rw [hrefuses, pendingIn_eq subscription.connId, hholds]
    rfl

/-- A stream is requested only for a namespace with room. -/
theorem lt_limit_of_streamReq {task : ManagerTask} {outgoing : Outgoing}
    {candidate : ServerConnInfo} {rest : List ServerConnInfo}
    (houtcome : (manager.handle settings now task).2 = .send outgoing)
    (hresume : outgoing.resume = .streamReq subscription candidate rest) :
    task = .subcribe subscription.key subscription.connId
        subscription.connSender subscription.excludedServerConns ∧
      manager.streamCount (keyNamespace subscription.key) <
        settings.maxStreamsPerNamespace := by
  obtain rfl := streamReq_of_handle houtcome hresume
  refine ⟨rfl, lt_of_not_ge fun hfull => ?_⟩
  rw [streamCount] at hfull
  rw [handle, subcribe, if_pos hfull] at houtcome
  cases houtcome
  cases hresume

end Limit

end Manager

/-! ## Counters and entries along a run -/

/-- Counters and entries agree and are within the limit, and a stream that is
being requested finds room. -/
structure Charged (settings : Settings) (manager : Manager) (phase : Phase) :
    Prop where
  counted : manager.Counted
  bounded : ∀ nameSpace,
    manager.pendingIn nameSpace ≤ settings.maxStreamsPerNamespace
  reserved : ∀ sender outgoing subscription candidate rest,
    phase = .sending sender outgoing →
      outgoing.resume = .streamReq subscription candidate rest →
        manager.pendingIn (keyNamespace subscription.key) <
          settings.maxStreamsPerNamespace

section Charges

variable {settings : Settings} {manager : Manager}

theorem phase_eq_sending {sender other : Option Socket} {outcome : Outcome}
    {outgoing : Outgoing}
    (hphase : outcome.phase sender = .sending other outgoing) :
    sender = other ∧ outcome = .send outgoing := by
  cases outcome with
  | send =>
      cases hphase
      exact ⟨rfl, rfl⟩
  | _ => cases hphase

theorem charged_handle (hcharged : Charged settings manager .idle)
    (now : Instant) (envelope : Envelope) :
    Charged settings (manager.handle settings now envelope.task).1
      ((manager.handle settings now envelope.task).2.phase
        envelope.sender) := by
  obtain ⟨hpending, hcounts⟩ :=
    manager.handle_charges settings now envelope.task
  have hremoved : ∀ clientId nameSpace,
      (manager.removePendingStream clientId).pendingIn nameSpace ≤
        manager.pendingIn nameSpace := by
    intro clientId nameSpace
    cases hlookup : manager.pendingStreams.lookup clientId with
    | none => rw [Manager.removePendingStream, hlookup]
    | some removed =>
        rw [Manager.pendingIn_removePendingStream hlookup]
        exact Nat.sub_le ..
  have hle : ∀ nameSpace,
      (manager.handle settings now envelope.task).1.pendingIn nameSpace ≤
        manager.pendingIn nameSpace := by
    intro nameSpace
    rw [Manager.pendingIn, hpending]
    split
    · exact hremoved _ nameSpace
    · exact le_rfl
  refine ⟨?_, fun nameSpace => (hle nameSpace).trans
    (hcharged.bounded nameSpace), fun sender outgoing subscription candidate
      rest hphase hresume => ?_⟩
  · refine Manager.Counted.congr ?_ hpending hcounts
    split
    · exact hcharged.counted.removePendingStream _
    · exact hcharged.counted
  · obtain ⟨-, hroom⟩ := Manager.lt_limit_of_streamReq
      (phase_eq_sending hphase).2 hresume
    rw [hcharged.counted] at hroom
    exact (hle _).trans_lt hroom

theorem charged_resume {sender : Option Socket} {outgoing : Outgoing}
    {sent : Bool}
    (hcharged : Charged settings manager (.sending sender outgoing))
    (hsame : ∀ subscription candidate rest, sent = true →
      outgoing.resume = .streamReq subscription candidate rest →
        ∀ stream ∈ manager.pendingStreams.lookup subscription.connId,
          keyNamespace stream.key = keyNamespace subscription.key) :
    Charged settings (manager.resume sent outgoing.resume).1
      ((manager.resume sent outgoing.resume).2.phase sender) := by
  rcases manager.resume_charges sent outgoing.resume with
    ⟨subscription, candidate, rest, rfl, hresume, hmanager⟩ |
      ⟨hpending, hcounts⟩
  · rw [hmanager]
    have hroom := hcharged.reserved _ _ _ _ _ rfl hresume
    refine ⟨hcharged.counted.pendStream subscription candidate
      (hsame _ _ _ rfl hresume), fun nameSpace => ?_, ?_⟩
    · have hbefore := hcharged.bounded nameSpace
      rw [Manager.pendingIn_eq subscription.connId] at hbefore
      rw [Manager.pendingIn_pendStream]
      split
      · rename_i heq
        rw [heq, Manager.pendingIn_eq subscription.connId] at hroom
        omega
      · omega
    · rintro sender outgoing other next later hphase hnext
      rw [hresume] at hphase
      cases hphase
      cases hnext
  · have hpendingIn : ∀ nameSpace,
        (manager.resume sent outgoing.resume).1.pendingIn nameSpace =
          manager.pendingIn nameSpace := by
      intro nameSpace
      rw [Manager.pendingIn, hpending, Manager.pendingIn]
    refine ⟨hcharged.counted.congr hpending hcounts, fun nameSpace => ?_, ?_⟩
    · rw [hpendingIn]
      exact hcharged.bounded nameSpace
    · rintro sender next subscription candidate rest hphase hnext
      rw [hpendingIn]
      obtain ⟨rfl, houtcome⟩ := phase_eq_sending hphase
      obtain ⟨_, _, hresume, -⟩ := Manager.streamReq_of_resume houtcome hnext
      exact hcharged.reserved _ _ _ _ _ rfl hresume

end Charges

/-! ## A retry in a full namespace -/

/-- One stream in a namespace at a time. -/
def Settings.oneStream : Settings :=
  { Settings.default with maxStreamsPerNamespace := 1 }

/-- One of two providers does not acknowledge the only subscriber's stream, and
the subscriber asks for another one. -/
def retryHistory : List Event :=
  connect 0 (adminRequest (.register ['a'] false false none)) ++ [.send] ++
    connect 1 (adminRequest (.register ['a'] false false none)) ++ [.send] ++
    connect 2 (adminRequest (.subcribe ['a'])) ++
    [.send, .send, .recv 2 false, .connection 2 .timeout, .connection 2 .post,
      .receive 0, .connection 2 .post]

/-- The subscription the manager takes next. -/
def RelayState.nextSubscription (relay : RelayState) : Option Subscription :=
  match relay.queue with
  | ⟨_, .subcribe key connId connSender excluded⟩ :: _ =>
      some ⟨key, connId, connSender, excluded⟩
  | _ => none

/-- The retry is turned away because of the stream it replaces. -/
theorem retryHistory_refused :
    ∃ relay subscription,
      (relaySystem Settings.oneStream).Reachable relay ∧
      relay.nextSubscription = some subscription ∧
      ¬relay.manager.RetriesUncharged Settings.oneStream 0 subscription := by
  have hrun : (retryHistory.foldlM (RelayState.step Settings.oneStream)
      RelayState.init).map (fun relay => relay.nextSubscription.map
        fun subscription =>
          (relay.manager.holdsStream (keyNamespace subscription.key)
              subscription.connId,
            relay.manager.refusesStream Settings.oneStream 0 subscription)) =
      some (some (true, true)) := by
    decide +kernel
  obtain ⟨relay, hfold, hsome⟩ := Option.map_eq_some_iff.mp hrun
  obtain ⟨subscription, hnext, hretry⟩ := Option.map_eq_some_iff.mp hsome
  obtain ⟨hholds, hrefuses⟩ := Prod.mk.inj hretry
  refine ⟨relay, subscription, Transition.System.reachable_of_foldlM
    (fun _ _ _ hstep => hstep) rfl hfold, hnext, fun huncharged => ?_⟩
  rw [huncharged.retry hholds] at hrefuses
  cases hrefuses

end PbMapper.Relay

import PbMapper.Relay.Task

/-!
# The routing manager

The state of the manager loop and what it does with each task.  A handler runs
up to its next awaited send; what it does afterwards is kept with the pending
send, so that connection handlers can make progress while the manager waits.
-/

namespace PbMapper.Relay

/-- The limits and settings the manager loop reads from its environment. -/
structure Settings where
  maxServicesPerNamespace : ℕ
  maxRegisterConnectionsPerService : ℕ
  maxStreamsPerNamespace : ℕ
  newStreamsPerSecond : ℕ
  newStreamsBurst : ℕ
  serverLeaseTimeoutMs : ℕ

/-- The defaults of `env_limit` and of the lease timeout. -/
def Settings.default : Settings := ⟨256, 16, 1024, 100, 200, 15000⟩

/-- `env_limit`, from the number the variable parses to, if it does. -/
def envLimit (parsed : Option ℕ) (default : ℕ) : ℕ :=
  (parsed.filter (0 < ·)).getD default

theorem envLimit_pos {parsed : Option ℕ} {default : ℕ}
    (hdefault : 0 < default) : 0 < envLimit parsed default := by
  unfold envLimit
  cases hfilter : parsed.filter (0 < ·) with
  | none => exact hdefault
  | some value =>
      have hvalue := (Option.filter_eq_some_iff.mp hfilter).2
      simpa using hvalue

/-- The settings the manager loop starts with. -/
def Settings.fromEnv (maxServices maxRegisterConnections maxStreams
    newStreams burst : Option ℕ) (serverLeaseTimeoutMs : ℕ) : Settings where
  maxServicesPerNamespace := envLimit maxServices 256
  maxRegisterConnectionsPerService := envLimit maxRegisterConnections 16
  maxStreamsPerNamespace := envLimit maxStreams 1024
  newStreamsPerSecond := envLimit newStreams 100
  newStreamsBurst := envLimit burst 200
  serverLeaseTimeoutMs := serverLeaseTimeoutMs

/-! ## Rate limits -/

/-- A token bucket, with time and tokens as rationals. -/
structure NamespaceRateLimit where
  tokens : ℚ
  lastRefill : Instant
  ratePerSecond : ℚ
  burst : ℚ
deriving DecidableEq

namespace NamespaceRateLimit

def new (ratePerSecond burst : ℕ) (now : Instant) : NamespaceRateLimit :=
  ⟨burst, now, ratePerSecond, burst⟩

def allow (limit : NamespaceRateLimit) (now : Instant) :
    Bool × NamespaceRateLimit :=
  let tokens := min
    (limit.tokens + max 0 (now - limit.lastRefill) * limit.ratePerSecond)
    limit.burst
  if tokens < 1 then (false, { limit with tokens, lastRefill := now })
  else (true, { limit with tokens := tokens - 1, lastRefill := now })

end NamespaceRateLimit

/-! ## State -/

/-- An entry of `pending_streams`. -/
structure PendingStream where
  serverConnId : RemoteConnId
  serverGeneration : ℕ
  key : ImutableKey
deriving DecidableEq

/-- The state of the manager loop. -/
structure Manager where
  taskManager : TaskManager Socket
  serverConnMap : ServerConnMap
  pendingStreams : Table RemoteConnId PendingStream
  namespaceStreamCounts : Table UInt64 ℕ
  namespaceRateLimits : Table UInt64 NamespaceRateLimit
  nextServerGeneration : ℕ

def Manager.new : Manager := ⟨.new, ∅, ∅, ∅, ∅, 1⟩

/-! ## Registration map -/

def keyNamespace (key : ImutableKey) : UInt64 := (splitScopedServiceKey key).1

/-- The first registration with the identity leaves the list of the key, which
disappears when it becomes empty. -/
def removeServerConn (serverConnMap : ServerConnMap) (key : ImutableKey)
    (connId : RemoteConnId) : ServerConnMap :=
  match serverConnMap.lookup key with
  | none => serverConnMap
  | some ids =>
      let rest := ids.eraseP (·.connId == connId)
      if rest.length = ids.length then serverConnMap
      else if rest = [] then serverConnMap.erase key
      else serverConnMap.insert key rest

/-- `update` of the first element that satisfies `predicate`. -/
def updateFirst {α : Type*} (predicate : α → Bool) (update : α → α) :
    List α → List α
  | [] => []
  | head :: rest =>
      if predicate head then update head :: rest
      else head :: updateFirst predicate update rest

/-- Updates the first registration of a key that satisfies `predicate`. -/
def updateServerConn (serverConnMap : ServerConnMap) (key : ImutableKey)
    (predicate : ServerConnInfo → Bool)
    (update : ServerConnInfo → ServerConnInfo) : ServerConnMap :=
  match serverConnMap.lookup key with
  | none => serverConnMap
  | some infos => serverConnMap.insert key (updateFirst predicate update infos)

/-- Updates the first registration of the whole map that satisfies
`predicate`. -/
def updateAnyServerConn (serverConnMap : ServerConnMap)
    (predicate : ServerConnInfo → Bool)
    (update : ServerConnInfo → ServerConnInfo) : ServerConnMap :=
  match serverConnMap.entries.find? (·.2.any predicate) with
  | none => serverConnMap
  | some entry => updateServerConn serverConnMap entry.1 predicate update

def ServerConnInfo.active (now : Instant) (info : ServerConnInfo) :
    ServerConnInfo :=
  { info with lastRxAt := now, health := .healthy }

def recordServerConnActivity (now : Instant) (serverConnMap : ServerConnMap)
    (key : ImutableKey) (connId : RemoteConnId) : ServerConnMap :=
  updateServerConn serverConnMap key (·.connId == connId) (·.active now)

def recordServerConnActivityByConnId (now : Instant)
    (serverConnMap : ServerConnMap) (connId : RemoteConnId) : ServerConnMap :=
  updateAnyServerConn serverConnMap (·.connId == connId) (·.active now)

/-- A stream or its acknowledgement shows that the registration is alive. -/
def markHealthy (serverConnMap : ServerConnMap) (connId : RemoteConnId)
    (generation : ℕ) : ServerConnMap :=
  updateAnyServerConn serverConnMap
    (fun info => info.connId == connId && info.generation == generation)
    ({ · with health := .healthy })

/-- The identities of all registrations. -/
def serverConnIds (serverConnMap : ServerConnMap) : List RemoteConnId :=
  serverConnMap.entries.flatMap fun entry => entry.2.map (·.connId)

/-- The registrations of a key. -/
def registrations (serverConnMap : ServerConnMap) (key : ImutableKey) :
    List ServerConnInfo :=
  (serverConnMap.lookup key).getD []

section Registrations

variable {serverConnMap : ServerConnMap} {key other : ImutableKey}
  {connId : RemoteConnId}

theorem registrations_insert (infos : List ServerConnInfo) :
    registrations (serverConnMap.insert key infos) other =
      if other = key then infos else registrations serverConnMap other := by
  unfold registrations
  rw [Table.lookup_insert]
  split <;> rfl

theorem registrations_erase :
    registrations (serverConnMap.erase key) other =
      if other = key then [] else registrations serverConnMap other := by
  unfold registrations
  rw [Table.lookup_erase]
  split <;> rfl

theorem registrations_of_lookup {infos : List ServerConnInfo}
    (hlookup : serverConnMap.lookup key = some infos) :
    registrations serverConnMap key = infos := by
  rw [registrations, hlookup, Option.getD_some]

/-- Removing a connection erases its first registration under the key. -/
theorem registrations_removeServerConn :
    registrations (removeServerConn serverConnMap key connId) other =
      if other = key then
        (registrations serverConnMap key).eraseP (·.connId == connId)
      else registrations serverConnMap other := by
  unfold removeServerConn
  cases hlookup : serverConnMap.lookup key with
  | none =>
      dsimp only
      split
      · rename_i heq
        rw [heq, registrations, hlookup]
        rfl
      · rfl
  | some ids =>
      have hids := registrations_of_lookup hlookup
      dsimp only
      split
      · rename_i hlength
        split
        · rename_i heq
          have hsublist : (ids.eraseP (·.connId == connId)).Sublist ids :=
            List.eraseP_sublist
          rw [heq, hids, hsublist.eq_of_length hlength]
        · rfl
      · split
        · rename_i hempty
          rw [registrations_erase, hids, hempty]
        · rw [registrations_insert, hids]

theorem map_updateFirst {α β : Type*} (predicate : α → Bool) (update : α → α)
    (view : α → β) (hview : ∀ value, view (update value) = view value)
    (list : List α) :
    (updateFirst predicate update list).map view = list.map view := by
  induction list with
  | nil => rfl
  | cons head rest ih =>
      unfold updateFirst
      split
      · simp [hview]
      · simp [ih]

variable {predicate : ServerConnInfo → Bool}
  {update : ServerConnInfo → ServerConnInfo}

/-- What an update does not touch stays as it is under every key. -/
theorem map_registrations_updateServerConn {View : Type*}
    (view : ServerConnInfo → View)
    (hview : ∀ info, view (update info) = view info) :
    (registrations (updateServerConn serverConnMap key predicate update)
        other).map view =
      (registrations serverConnMap other).map view := by
  unfold updateServerConn
  cases hlookup : serverConnMap.lookup key with
  | none => rfl
  | some infos =>
      dsimp only
      rw [registrations_insert]
      split
      · rename_i heq
        rw [heq, registrations_of_lookup hlookup]
        exact map_updateFirst _ _ _ hview _
      · rfl

theorem map_registrations_updateAnyServerConn {View : Type*}
    (view : ServerConnInfo → View)
    (hview : ∀ info, view (update info) = view info) :
    (registrations (updateAnyServerConn serverConnMap predicate update)
        other).map view =
      (registrations serverConnMap other).map view := by
  unfold updateAnyServerConn
  split
  · rfl
  · exact map_registrations_updateServerConn view hview

end Registrations

/-! ## Per-namespace accounting -/

def decrementNamespaceStreamCount (counts : Table UInt64 ℕ)
    (nameSpace : UInt64) : Table UInt64 ℕ :=
  match counts.lookup nameSpace with
  | none => counts
  | some count =>
      if count - 1 = 0 then counts.erase nameSpace
      else counts.insert nameSpace (count - 1)

namespace Manager

variable (settings : Settings) (now : Instant) (manager : Manager)

def releaseNamespaceRateLimitIfIdle (nameSpace : UInt64) : Manager :=
  let hasRegisteredService :=
    manager.serverConnMap.keys.any (keyNamespace · == nameSpace)
  let hasPendingStream := manager.pendingStreams.entries.any
    (keyNamespace ·.2.key == nameSpace)
  if !hasRegisteredService && !hasPendingStream then
    { manager with
      namespaceRateLimits := manager.namespaceRateLimits.erase nameSpace }
  else manager

def deregisterConn (connId : RemoteConnId) : Manager :=
  { manager with taskManager := (manager.taskManager.deregisterConn connId).1 }

/-- `remove_server_conn` followed by `deregister_conn`. -/
def dropServerConn (key : ImutableKey) (connId : RemoteConnId) : Manager :=
  { manager with
    serverConnMap := removeServerConn manager.serverConnMap key connId
    taskManager := (manager.taskManager.deregisterConn connId).1 }

/-- The rate-limit entry is created on first use. -/
def allowNewStream (nameSpace : UInt64) : Bool × Manager :=
  let limit := (manager.namespaceRateLimits.lookup nameSpace).getD
    (.new settings.newStreamsPerSecond settings.newStreamsBurst now)
  let (allowed, limit) := limit.allow now
  (allowed, { manager with
    namespaceRateLimits := manager.namespaceRateLimits.insert nameSpace limit })

end Manager

/-! ## Pending sends -/

/-- The subscriber a `Subcribe` task comes from. -/
structure Subscription where
  key : ImutableKey
  connId : RemoteConnId
  connSender : Socket
  excludedServerConns : List (RemoteConnId × ℕ)

/-- What the handler does when its send returns. -/
inductive Resume where
  /-- Nothing: the result is only logged. -/
  | done
  /-- The stream request of a candidate; the next candidates are tried when its
  channel is closed. -/
  | streamReq (subscription : Subscription) (candidate : ServerConnInfo)
      (rest : List ServerConnInfo)
  /-- The subscriber's channel is deregistered when it is closed. -/
  | subcribeResp (connId : RemoteConnId)

/-- An awaited send of the manager. -/
structure Outgoing where
  channel : Socket
  message : ConnTask
  resume : Resume

/-- Where a handler gets to without waiting. -/
inductive Outcome where
  /-- The next task is awaited. -/
  | done
  /-- A connection handler is spawned. -/
  | spawn (connId : RemoteConnId)
  /-- A message is put on a channel if it has room. -/
  | trySend (channel : Socket) (message : ConnTask)
  | send (outgoing : Outgoing)
  /-- The loop ends. -/
  | stop

namespace Manager

variable (settings : Settings) (now : Instant) (manager : Manager)

/-! ## Accept -/

def accept : Manager × Outcome :=
  let (connId, taskManager) :=
    manager.taskManager.getConnId (serverConnIds manager.serverConnMap)
  ({ manager with taskManager }, .spawn connId)

/-! ## Register -/

/-- Why a registration is refused: its code, reason and whether a retry may
succeed. -/
def registerFailure (key : ImutableKey) (isDatagram : Bool) :
    Option (String × String × Bool) :=
  let existing := manager.serverConnMap.lookup key
  if existing.any fun connections =>
      connections.head?.any (·.isDatagram != isDatagram) then
    some ("service_transport_mismatch",
      "the service name is already registered with a different transport",
      false)
  else if existing.any fun connections =>
      settings.maxRegisterConnectionsPerService ≤ connections.length then
    some ("service_connection_limit_exceeded",
      "the service has reached its register connection limit", true)
  else if existing.isNone && settings.maxServicesPerNamespace ≤
      manager.serverConnMap.keys.countP
        (keyNamespace · == keyNamespace key) then
    some ("namespace_service_limit_exceeded",
      "the namespace has reached its service name limit", true)
  else none

/-- The new registration goes to the end of the list of its key. -/
def pushServerConn (key : ImutableKey) (info : ServerConnInfo) : Manager :=
  { manager with
    serverConnMap := manager.serverConnMap.insert key
      ((manager.serverConnMap.lookup key).getD [] ++ [info]) }

def register (key : ImutableKey) (connId : RemoteConnId)
    (needCodec isDatagram : Bool) (protocolVersion : ℕ) (connSender : Socket) :
    Manager × Outcome :=
  match manager.registerFailure settings key isDatagram with
  | some (code, reason, retryable) =>
      (manager, .send ⟨connSender, .registerFailed code reason retryable,
        .done⟩)
  | none =>
      let generation := manager.nextServerGeneration
      let registered : Manager :=
        { manager with
          nextServerGeneration :=
            max (MachineWord.satAdd MachineWord.u64Max generation 1) 1
          taskManager :=
            manager.taskManager.signUpConnSender connId connSender }
      (registered.pushServerConn key
          ⟨connId, generation, .healthy, needCodec, isDatagram,
            protocolVersion, now⟩,
        .send ⟨connSender, .registerResp generation protocolVersion
          settings.serverLeaseTimeoutMs, .done⟩)

/-! ## Stream and StreamAck -/

/-- A message to the channel signed up for a subscriber; without one, only an
error is logged. -/
def sendToClient (clientId : RemoteConnId) (message : ConnTask) : Outcome :=
  match manager.taskManager.getConnSenderChan clientId with
  | none => .done
  | some clientSender => .send ⟨clientSender, message, .done⟩

def stream (key : ImutableKey) (stream : DataStream)
    (serverId clientId : RemoteConnId) (serverGeneration : ℕ) :
    Manager × Outcome :=
  match manager.pendingStreams.lookup clientId with
  | none => (manager, .done)
  | some expected =>
      if key ≠ expected.key then (manager, .done)
      else if serverGeneration ≠ 0 ∧
          expected.serverGeneration ≠ serverGeneration then (manager, .done)
      else
        ({ manager with
            serverConnMap := markHealthy manager.serverConnMap
              expected.serverConnId expected.serverGeneration },
          manager.sendToClient clientId
            (.streamResp serverId expected.serverGeneration stream))

def streamAck (serverId clientId : RemoteConnId) (serverGeneration : ℕ) :
    Manager × Outcome :=
  let recorded : Manager := { manager with
    serverConnMap :=
      recordServerConnActivityByConnId now manager.serverConnMap serverId }
  match manager.pendingStreams.lookup clientId with
  | none => (recorded, .done)
  | some expected =>
      if expected.serverConnId ≠ serverId ∨
          expected.serverGeneration ≠ serverGeneration then (recorded, .done)
      else
        ({ recorded with
            serverConnMap := markHealthy recorded.serverConnMap serverId
              serverGeneration },
          manager.sendToClient clientId (.streamAck serverId serverGeneration))

/-! ## Subcribe -/

/-- The answer when no provider can be asked. -/
def subcribeRejected (subscription : Subscription) (reason : String) :
    Outgoing :=
  ⟨subscription.connSender,
    if subscription.excludedServerConns = [] then
      .subcribeFailed "service_not_available" reason true
    else .subcribeRetry reason, .done⟩

/-- The loop over the candidates up to the next stream request.  A candidate
without a channel is removed. -/
def selectServer (manager : Manager) (subscription : Subscription) :
    List ServerConnInfo → Manager × Outgoing
  | [] => (manager, subcribeRejected subscription
      ("no usable server connection for key `" ++
        String.ofList subscription.key ++ "`"))
  | candidate :: rest =>
      match manager.taskManager.getConnSenderChan candidate.connId with
      | none => selectServer
          (manager.dropServerConn subscription.key candidate.connId)
          subscription rest
      | some serverConnSender =>
          (manager, ⟨serverConnSender,
            .streamReq subscription.connId candidate.generation,
            .streamReq subscription candidate rest⟩)

/-- Healthy registrations the subscriber has not excluded, newest first. -/
def candidates (subscription : Subscription)
    (serverConnIdList : List ServerConnInfo) : List ServerConnInfo :=
  serverConnIdList.reverse.filter fun info =>
    info.health == .healthy && !subscription.excludedServerConns.contains
      (info.connId, info.generation)

def subcribe (subscription : Subscription) : Manager × Outcome :=
  let nameSpace := keyNamespace subscription.key
  if settings.maxStreamsPerNamespace ≤
      (manager.namespaceStreamCounts.lookup nameSpace).getD 0 then
    (manager, .send ⟨subscription.connSender,
      .subcribeFailed "namespace_stream_limit_exceeded"
        "the namespace has reached its active stream limit" true, .done⟩)
  else
    match manager.serverConnMap.lookup subscription.key with
    | none =>
        (manager, .send (subcribeRejected subscription
          ("server key `" ++ String.ofList subscription.key ++
            "` is not registered")))
    | some serverConnIdList =>
        match manager.allowNewStream settings now nameSpace with
        | (false, limited) =>
            (limited, .send ⟨subscription.connSender,
              .subcribeFailed "namespace_stream_rate_exceeded"
                "the namespace new-stream rate limit was exceeded" true,
              .done⟩)
        | (true, limited) =>
            let (selected, outgoing) := limited.selectServer subscription
              (candidates subscription serverConnIdList)
            (selected, .send outgoing)

/-- The subscriber is signed up and its stream is pending. -/
def pendStream (subscription : Subscription) (candidate : ServerConnInfo) :
    Manager :=
  let nameSpace := keyNamespace subscription.key
  { manager with
    taskManager :=
      if (manager.taskManager.getConnSenderChan subscription.connId).isNone then
        manager.taskManager.signUpConnSender subscription.connId
          subscription.connSender
      else manager.taskManager
    namespaceStreamCounts :=
      if (manager.pendingStreams.lookup subscription.connId).isNone then
        manager.namespaceStreamCounts.insert nameSpace
          ((manager.namespaceStreamCounts.lookup nameSpace).getD 0 + 1)
      else manager.namespaceStreamCounts
    pendingStreams := manager.pendingStreams.insert subscription.connId
      ⟨candidate.connId, candidate.generation, subscription.key⟩ }

/-! ## Deregistration -/

def deRegisterServerConn (key : ImutableKey) (connId : RemoteConnId) :
    Manager :=
  (manager.dropServerConn key connId).releaseNamespaceRateLimitIfIdle
    (keyNamespace key)

def retireServerConn (key : ImutableKey) (connId : RemoteConnId)
    (reason : RetireReason) : Manager × Outcome :=
  (manager.deRegisterServerConn key connId,
    match manager.taskManager.getConnSenderChan connId with
    | none => .done
    | some connSender => .trySend connSender (.retire reason))

/-- `pending_streams.remove` with its effect on the count. -/
def removePendingStream (clientId : RemoteConnId) : Manager :=
  match manager.pendingStreams.lookup clientId with
  | none => manager
  | some removed =>
      { manager with
        pendingStreams := manager.pendingStreams.erase clientId
        namespaceStreamCounts := decrementNamespaceStreamCount
          manager.namespaceStreamCounts (keyNamespace removed.key) }

def deRegisterClientConn (serverId : Option RemoteConnId)
    (clientId : RemoteConnId) : Manager :=
  let removed := manager.removePendingStream clientId
  let withoutServer := match serverId with
    | none => removed
    | some serverId => removed.deregisterConn serverId
  let deregistered := withoutServer.deregisterConn clientId
  match manager.pendingStreams.lookup clientId with
  | none => deregistered
  | some pending =>
      deregistered.releaseNamespaceRateLimitIfIdle (keyNamespace pending.key)

theorem deRegisterClientConn_eq (serverId : Option RemoteConnId)
    (clientId : RemoteConnId) :
    manager.deRegisterClientConn serverId clientId =
      (manager.pendingStreams.lookup clientId).elim
        ((serverId.elim (manager.removePendingStream clientId)
          (manager.removePendingStream clientId).deregisterConn).deregisterConn
            clientId)
        fun pending =>
          ((serverId.elim (manager.removePendingStream clientId)
            (manager.removePendingStream clientId).deregisterConn).deregisterConn
              clientId).releaseNamespaceRateLimitIfIdle
                (keyNamespace pending.key) := by
  simp only [deRegisterClientConn]
  cases serverId <;> cases manager.pendingStreams.lookup clientId <;> rfl

/-! ## Status -/

def serviceStatusConnections (key : ImutableKey) : List PbServiceConnStatus :=
  ((manager.serverConnMap.lookup key).getD []).map fun info =>
    ⟨info.connId, info.generation, info.protocolVersion,
      info.health == .healthy, ((now - info.lastRxAt) * 1000).floor.toNat⟩

/-- The answer to a status request, restricted to a namespace. -/
def statusResp (nameSpace : UInt64) : PbConnStatusReq → PbConnStatusResp
  | .remoteId =>
      let inNamespace := manager.serverConnMap.entries.filter
        fun entry => keyNamespace entry.1 == nameSpace
      .remoteId
        (inNamespace.map fun entry =>
          ((splitScopedServiceKey entry.1).2, entry.2))
        (inNamespace.flatMap fun entry => entry.2.map (·.connId))
        ((manager.pendingStreams.entries.filter
          fun entry => keyNamespace entry.2.key == nameSpace).map (·.1))
  | .keys => .keys
      ((manager.serverConnMap.keys.filter (keyNamespace · == nameSpace)).map
        fun key => (splitScopedServiceKey key).2)
  | .service key =>
      .service key
        (manager.serviceStatusConnections now (scopeKey nameSpace key))

/-! ## The loop -/

/-- One iteration of the manager loop, up to its first awaited send. -/
def handle : ManagerTask → Manager × Outcome
  | .accept => manager.accept
  | .register key connId needCodec isDatagram protocolVersion connSender =>
      manager.register settings now key connId needCodec isDatagram
        protocolVersion connSender
  | .serverConnActivity key connId =>
      ({ manager with
        serverConnMap :=
          recordServerConnActivity now manager.serverConnMap key connId },
        .done)
  | .subcribe key connId connSender excludedServerConns =>
      manager.subcribe settings now
        ⟨key, connId, connSender, excludedServerConns⟩
  | .stream key stream serverId clientId serverGeneration =>
      manager.stream key stream serverId clientId serverGeneration
  | .streamAck serverId clientId serverGeneration =>
      manager.streamAck now serverId clientId serverGeneration
  | .status connSender status nameSpace _ =>
      (manager, .send ⟨connSender,
        .statusResp (manager.statusResp now nameSpace status), .done⟩)
  | .deRegisterServerConn key connId =>
      (manager.deRegisterServerConn key connId, .done)
  | .retireServerConn key connId reason =>
      manager.retireServerConn key connId reason
  | .deRegisterClientConn serverId clientId =>
      (manager.deRegisterClientConn serverId clientId, .done)
  | .shutdown => (manager, .stop)

/-- The rest of an iteration after its awaited send: `sent` tells whether the
channel took the message or was closed. -/
def resume (sent : Bool) : Resume → Manager × Outcome
  | .done => (manager, .done)
  | .streamReq subscription candidate rest =>
      if sent then
        (manager.pendStream subscription candidate,
          .send ⟨subscription.connSender,
            .subcribeResp candidate.connId candidate.generation
              candidate.needCodec candidate.isDatagram,
            .subcribeResp subscription.connId⟩)
      else
        let (selected, outgoing) :=
          (manager.dropServerConn subscription.key candidate.connId).selectServer
            subscription rest
        (selected, .send outgoing)
  | .subcribeResp connId =>
      if sent then (manager, .done) else (manager.deregisterConn connId, .done)

/-! ## What the candidate loop does -/

/-- Registrations were removed, but only of identities without a channel. -/
structure Pruned (before after : Manager) : Prop where
  taskManager : after.taskManager = before.taskManager
  pendingStreams : after.pendingStreams = before.pendingStreams
  namespaceStreamCounts :
    after.namespaceStreamCounts = before.namespaceStreamCounts
  nextServerGeneration :
    after.nextServerGeneration = before.nextServerGeneration
  kept : ∀ key, ∀ info ∈ registrations after.serverConnMap key,
    info ∈ registrations before.serverConnMap key
  lost : ∀ key, ∀ info ∈ registrations before.serverConnMap key,
    info ∈ registrations after.serverConnMap key ∨
      before.taskManager.getConnSenderChan info.connId = none

theorem Pruned.refl : Pruned manager manager :=
  ⟨rfl, rfl, rfl, rfl, fun _ _ hinfo => hinfo, fun _ _ hinfo => .inl hinfo⟩

theorem Pruned.trans {first middle last : Manager}
    (hfirst : Pruned first middle) (hlast : Pruned middle last) :
    Pruned first last where
  taskManager := hlast.taskManager.trans hfirst.taskManager
  pendingStreams := hlast.pendingStreams.trans hfirst.pendingStreams
  namespaceStreamCounts :=
    hlast.namespaceStreamCounts.trans hfirst.namespaceStreamCounts
  nextServerGeneration :=
    hlast.nextServerGeneration.trans hfirst.nextServerGeneration
  kept key info hinfo := hfirst.kept key info (hlast.kept key info hinfo)
  lost key info hinfo := by
    rcases hfirst.lost key info hinfo with hmiddle | hnone
    · have hlost := hlast.lost key info hmiddle
      rwa [hfirst.taskManager] at hlost
    · exact .inr hnone

section RemoveServerConn

variable {serverConnMap : ServerConnMap} {key other : ImutableKey}
  {connId : RemoteConnId} {info : ServerConnInfo}

theorem mem_of_mem_removeServerConn
    (hinfo : info ∈ registrations (removeServerConn serverConnMap key connId)
      other) :
    info ∈ registrations serverConnMap other := by
  rw [registrations_removeServerConn] at hinfo
  split at hinfo
  · rename_i heq
    rw [heq]
    exact List.mem_of_mem_eraseP hinfo
  · exact hinfo

theorem mem_removeServerConn_of_ne
    (hinfo : info ∈ registrations serverConnMap other)
    (hne : info.connId ≠ connId) :
    info ∈ registrations (removeServerConn serverConnMap key connId) other := by
  rw [registrations_removeServerConn]
  split
  · rename_i heq
    rw [heq] at hinfo
    exact (List.mem_eraseP_of_neg (by simpa using hne)).mpr hinfo
  · exact hinfo

end RemoveServerConn

theorem pruned_dropServerConn (key : ImutableKey) {connId : RemoteConnId}
    (hnone : manager.taskManager.getConnSenderChan connId = none) :
    Pruned manager (manager.dropServerConn key connId) where
  taskManager := by
    have hisNone :
        (manager.taskManager.activeConnMap.lookup connId).isNone := by
      rw [Option.isNone_iff_eq_none]
      exact hnone
    simp [dropServerConn, TaskManager.deregisterConn, hisNone]
  pendingStreams := rfl
  namespaceStreamCounts := rfl
  nextServerGeneration := rfl
  kept _ _ hinfo := mem_of_mem_removeServerConn hinfo
  lost other info hinfo := by
    by_cases heq : info.connId = connId
    · exact .inr (heq ▸ hnone)
    · exact .inl (mem_removeServerConn_of_ne hinfo heq)

/-- The candidate loop ends with a request to a candidate that has a channel, or
with the rejection of the subscriber. -/
theorem selectServer_cases (subscription : Subscription)
    (list : List ServerConnInfo) :
    Pruned manager (manager.selectServer subscription list).1 ∧
      ((∃ reason, (manager.selectServer subscription list).2 =
          subcribeRejected subscription reason) ∨
        ∃ candidate rest channel, candidate :: rest <:+ list ∧
          manager.taskManager.getConnSenderChan candidate.connId =
            some channel ∧
          (manager.selectServer subscription list).2 = ⟨channel,
            .streamReq subscription.connId candidate.generation,
            .streamReq subscription candidate rest⟩) := by
  induction list generalizing manager with
  | nil => exact ⟨.refl manager, .inl ⟨_, rfl⟩⟩
  | cons candidate rest ih =>
      unfold selectServer
      cases hchannel :
          manager.taskManager.getConnSenderChan candidate.connId with
      | none =>
          have hpruned := manager.pruned_dropServerConn
            subscription.key hchannel
          obtain ⟨hrest, hcases⟩ :=
            ih (manager.dropServerConn subscription.key candidate.connId)
          refine ⟨hpruned.trans hrest, hcases.imp_right ?_⟩
          rintro ⟨next, later, channel, hsuffix, hnext, hout⟩
          rw [hpruned.taskManager] at hnext
          exact ⟨next, later, channel, hsuffix.trans (List.suffix_cons _ _),
            hnext, hout⟩
      | some channel =>
          exact ⟨.refl manager, .inr ⟨candidate, rest, channel,
            List.suffix_refl _, hchannel, rfl⟩⟩

/-- Only a retirement is sent without waiting. -/
theorem handle_trySend {settings : Settings} {now : Instant}
    {task : ManagerTask} {channel : Socket} {message : ConnTask}
    (houtcome : (manager.handle settings now task).2 =
      .trySend channel message) :
    ∃ key connId reason, task = .retireServerConn key connId reason ∧
      manager.taskManager.getConnSenderChan connId = some channel ∧
      message = .retire reason := by
  cases task with
  | retireServerConn key connId reason =>
      simp only [handle, retireServerConn] at houtcome
      split at houtcome <;> cases houtcome
      rename_i hchannel
      exact ⟨key, connId, reason, rfl, hchannel, rfl⟩
  | register =>
      simp only [handle, register] at houtcome
      split at houtcome <;> cases houtcome
  | subcribe =>
      simp only [handle, subcribe] at houtcome
      repeat' split at houtcome
      all_goals cases houtcome
  | stream =>
      simp only [handle, stream, sendToClient] at houtcome
      repeat' split at houtcome
      all_goals cases houtcome
  | streamAck =>
      simp only [handle, streamAck, sendToClient] at houtcome
      repeat' split at houtcome
      all_goals cases houtcome
  | _ => cases houtcome

theorem resume_ne_trySend {sent : Bool} {resume : Resume} {channel : Socket}
    {message : ConnTask} :
    (manager.resume sent resume).2 ≠ .trySend channel message := by
  intro houtcome
  cases resume <;> cases sent <;> cases houtcome

/-! ## What a subscription does -/

/-- The answers a subscription is turned away with. -/
def isRefusal : ConnTask → Bool
  | .subcribeFailed _ _ _ | .subcribeRetry _ => true
  | _ => false

theorem isRefusal_subcribeRejected (subscription : Subscription)
    (reason : String) :
    isRefusal (subcribeRejected subscription reason).message = true := by
  simp only [subcribeRejected]
  split <;> rfl

/-- A subscription is refused, or goes through the candidates among the
registrations of its key; apart from that only rate limits change. -/
theorem subcribe_cases (settings : Settings) (now : Instant)
    (subscription : Subscription) :
    ∃ limits, (∃ message, isRefusal message = true ∧
        manager.subcribe settings now subscription =
          ({ manager with namespaceRateLimits := limits },
            .send ⟨subscription.connSender, message, .done⟩)) ∨
      ∃ selected, selected = ({ manager with
          namespaceRateLimits := limits }).selectServer subscription
            (candidates subscription
              (registrations manager.serverConnMap subscription.key)) ∧
        manager.subcribe settings now subscription =
          (selected.1, .send selected.2) := by
  unfold subcribe
  dsimp only
  split
  · exact ⟨_, .inl ⟨_, rfl, rfl⟩⟩
  · split
    · exact ⟨_, .inl ⟨_, isRefusal_subcribeRejected subscription _, rfl⟩⟩
    · rename_i hlookup
      split
      · rename_i limited hallow
        obtain rfl := congrArg Prod.snd hallow
        exact ⟨_, .inl ⟨_, rfl, rfl⟩⟩
      · rename_i limited hallow
        obtain rfl := congrArg Prod.snd hallow
        rw [registrations_of_lookup hlookup]
        exact ⟨_, .inr ⟨_, rfl, rfl⟩⟩

/-! ## What a stream is requested for -/

variable {manager} {outgoing : Outgoing} {subscription : Subscription}
  {candidate : ServerConnInfo} {rest : List ServerConnInfo}

/-- The candidate loop requests streams for its subscription only. -/
theorem streamReq_of_selectServer {requested : Subscription}
    {list : List ServerConnInfo}
    (hresume : (manager.selectServer requested list).2.resume =
      .streamReq subscription candidate rest) : requested = subscription := by
  obtain ⟨-, ⟨reason, hout⟩ | ⟨next, later, channel, -, -, hout⟩⟩ :=
    manager.selectServer_cases requested list
  · rw [hout] at hresume
    cases hresume
  · rw [hout] at hresume
    cases hresume
    rfl

/-- A task requests a stream only for its own subscription. -/
theorem streamReq_of_handle {settings : Settings} {now : Instant}
    {task : ManagerTask}
    (houtcome : (manager.handle settings now task).2 = .send outgoing)
    (hresume : outgoing.resume = .streamReq subscription candidate rest) :
    task = .subcribe subscription.key subscription.connId subscription.connSender
      subscription.excludedServerConns := by
  cases task with
  | subcribe key connId connSender excluded =>
      obtain ⟨limits, ⟨message, -, hsubcribe⟩ | ⟨selected, hselected,
        hsubcribe⟩⟩ := manager.subcribe_cases settings now
          ⟨key, connId, connSender, excluded⟩
      · simp only [handle, hsubcribe] at houtcome
        cases houtcome
        cases hresume
      · simp only [handle, hsubcribe] at houtcome
        cases houtcome
        rw [hselected] at hresume
        rw [← streamReq_of_selectServer hresume]
  | accept | serverConnActivity | deRegisterServerConn
  | deRegisterClientConn | shutdown => cases houtcome
  | status =>
      cases houtcome
      cases hresume
  | retireServerConn =>
      simp only [handle, retireServerConn] at houtcome
      split at houtcome <;> cases houtcome
  | register =>
      simp only [handle, register] at houtcome
      split at houtcome <;> cases houtcome <;> cases hresume
  | stream =>
      simp only [handle, stream, sendToClient] at houtcome
      repeat' split at houtcome
      all_goals cases houtcome
      cases hresume
  | streamAck =>
      simp only [handle, streamAck, sendToClient] at houtcome
      repeat' split at houtcome
      all_goals cases houtcome
      cases hresume

/-- The rest of a task requests a stream only for the subscription whose last
candidate was gone. -/
theorem streamReq_of_resume {sent : Bool} {resume : Resume}
    (houtcome : (manager.resume sent resume).2 = .send outgoing)
    (hresume : outgoing.resume = .streamReq subscription candidate rest) :
    ∃ previous tried, resume = .streamReq subscription previous tried ∧
      sent = false := by
  cases resume with
  | done => cases houtcome
  | subcribeResp connId => cases sent <;> cases houtcome
  | streamReq requested previous tried =>
      cases sent with
      | true =>
          cases houtcome
          cases hresume
      | false =>
          cases houtcome
          rw [streamReq_of_selectServer hresume]
          exact ⟨previous, tried, rfl, rfl⟩

end Manager

end PbMapper.Relay

import PbMapper.Relay.System

/-!
# Stream pairing

A subscriber accepts a stream by the generation of the registration it was
offered, and the manager passes a stream on by the key and the generation of the
pending entry.  The two agree because a generation belongs to one routing key:
every offer, entry and stream in the relay names a generation together with the
key it was given out for.
-/

namespace PbMapper.Relay

open RelayState

/-- A map from generations to the keys they were given out for. -/
abbrev KeyOf := ℕ → Option ImutableKey

/-- The connection of a channel has started and, if it is a subscriber, asks for
the service. -/
structure Subscribes (relay : RelayState) (key : ImutableKey)
    (channel : Socket) : Prop where
  accepted : channel < relay.nextSocket
  asks : ∀ connection, relay.connections.lookup channel = some connection →
    connection.handler ≠ .initial ∧
      ∀ asked ∈ connection.handler.clientKey, asked = key

/-! ## Consistency with a map -/

section Consistency

variable (keyOf : KeyOf)

/-- The manager's maps pair generations with their keys. -/
structure ManagerConsistent (manager : Manager) : Prop where
  given : ∀ generation key, keyOf generation = some key →
    generation < manager.nextServerGeneration
  registered : ∀ key, ∀ info ∈ registrations manager.serverConnMap key,
    keyOf info.generation = some key
  pending : ∀ clientId stream,
    manager.pendingStreams.lookup clientId = some stream →
      keyOf stream.serverGeneration = some stream.key

/-- What a message says to a connection that asks for `asked`. -/
def MessageConsistent (asked : Option ImutableKey) : ConnTask → Prop
  | .subcribeResp _ generation _ _ =>
      ∀ key ∈ asked, keyOf generation = some key
  | .streamResp _ generation stream =>
      keyOf generation = some stream.service.key
  | _ => True

/-- Offers name the service the subscriber asks for, and its stream carries
it. -/
def HandlerConsistent : Handler → Prop
  | .client service _ (.awaitingAck offer)
  | .client service _ (.awaitingStream offer) =>
      keyOf offer.serverGeneration = some service.key
  | .client service _ (.responding _ stream)
  | .client service _ (.forwarding _ stream) =>
      stream.service.key = service.key
  | _ => True

structure ConnectionConsistent (connection : Connection) : Prop where
  handler : HandlerConsistent keyOf connection.handler
  buffer : ∀ message ∈ connection.buffer,
    MessageConsistent keyOf connection.handler.clientKey message
  fresh : connection.handler = .initial → connection.buffer = []

/-- Queued subscriptions and streams carry the key of their connection. -/
def TaskConsistent (relay : RelayState) : ManagerTask → Prop
  | .subcribe key _ connSender _ => Subscribes relay key connSender
  | .stream key stream _ _ _ => stream.service.key = key
  | _ => True

/-- The message the manager is sending. -/
def SendingConsistent (relay : RelayState) (channel : Socket) :
    ConnTask → Prop
  | .subcribeResp _ generation _ _ =>
      ∃ key, Subscribes relay key channel ∧ keyOf generation = some key
  | .streamResp _ generation stream =>
      keyOf generation = some stream.service.key
  | _ => True

/-- What it will do afterwards. -/
def ResumeConsistent (relay : RelayState) : Resume → Prop
  | .streamReq subscription candidate rest =>
      Subscribes relay subscription.key subscription.connSender ∧
        ∀ info ∈ candidate :: rest,
          keyOf info.generation = some subscription.key
  | _ => True

structure OutgoingConsistent (relay : RelayState) (outgoing : Outgoing) :
    Prop where
  message : SendingConsistent keyOf relay outgoing.channel outgoing.message
  resume : ResumeConsistent keyOf relay outgoing.resume

/-- The connections and the queues. -/
structure PartiesConsistent (relay : RelayState) : Prop where
  accepted : ∀ socket connection, relay.connections.lookup socket =
    some connection → socket < relay.nextSocket
  connections : ∀ socket connection, relay.connections.lookup socket =
    some connection → ConnectionConsistent keyOf connection
  tasks : ∀ envelope ∈ relay.queue ++ relay.deferred,
    TaskConsistent relay envelope.task

structure Consistent (relay : RelayState) : Prop where
  manager : ManagerConsistent keyOf relay.manager
  parties : PartiesConsistent keyOf relay
  sending : ∀ sender outgoing, relay.phase = .sending sender outgoing →
    OutgoingConsistent keyOf relay outgoing

end Consistency

/-! ## More generations -/

section Extension

variable {keyOf larger : KeyOf} {relay : RelayState}

theorem MessageConsistent.mono {asked : Option ImutableKey}
    {message : ConnTask}
    (hmessage : MessageConsistent keyOf asked message)
    (hlarger : ∀ generation key, keyOf generation = some key →
      larger generation = some key) :
    MessageConsistent larger asked message := by
  cases message with
  | subcribeResp => exact fun key hkey => hlarger _ _ (hmessage key hkey)
  | streamResp => exact hlarger _ _ hmessage
  | _ => trivial

theorem HandlerConsistent.mono {handler : Handler}
    (hhandler : HandlerConsistent keyOf handler)
    (hlarger : ∀ generation key, keyOf generation = some key →
      larger generation = some key) :
    HandlerConsistent larger handler := by
  unfold HandlerConsistent at hhandler ⊢
  split at hhandler
  · exact hlarger _ _ hhandler
  · exact hlarger _ _ hhandler
  · exact hhandler
  · exact hhandler
  · trivial

theorem PartiesConsistent.mono (hparties : PartiesConsistent keyOf relay)
    (hlarger : ∀ generation key, keyOf generation = some key →
      larger generation = some key) :
    PartiesConsistent larger relay where
  accepted := hparties.accepted
  connections socket connection hlookup :=
    have hconnection := hparties.connections socket connection hlookup
    ⟨hconnection.handler.mono hlarger,
      fun message hmem => (hconnection.buffer message hmem).mono hlarger,
      hconnection.fresh⟩
  tasks := hparties.tasks

end Extension

/-! ## The next state of the connections -/

/-- Connections that have started keep what they ask for. -/
structure Continues (relay next : RelayState) : Prop where
  nextSocket : relay.nextSocket ≤ next.nextSocket
  connections : ∀ socket < relay.nextSocket, ∀ after,
    next.connections.lookup socket = some after →
      ∃ before, relay.connections.lookup socket = some before ∧
        (before.handler ≠ .initial → after.handler ≠ .initial ∧
          ∀ key ∈ after.handler.clientKey, before.handler.clientKey = some key)

section Continuation

variable {keyOf : KeyOf} {relay next : RelayState}

theorem Continues.of_eq (hconnections : next.connections = relay.connections)
    (hnextSocket : next.nextSocket = relay.nextSocket) :
    Continues relay next where
  nextSocket := hnextSocket.ge
  connections socket _ after hlookup :=
    ⟨after, by rwa [← hconnections], fun hne => ⟨hne, fun _ hkey => hkey⟩⟩

theorem Subscribes.continues {key : ImutableKey} {channel : Socket}
    (hsubscribes : Subscribes relay key channel)
    (hcontinues : Continues relay next) : Subscribes next key channel where
  accepted := hsubscribes.accepted.trans_le hcontinues.nextSocket
  asks after hafter := by
    obtain ⟨before, hbefore, hkeep⟩ := hcontinues.connections channel
      hsubscribes.accepted after hafter
    obtain ⟨hne, hasks⟩ := hsubscribes.asks before hbefore
    obtain ⟨hne', hkeys⟩ := hkeep hne
    exact ⟨hne', fun asked hasked => hasks asked (hkeys asked hasked)⟩

theorem TaskConsistent.continues {task : ManagerTask}
    (htask : TaskConsistent relay task) (hcontinues : Continues relay next) :
    TaskConsistent next task := by
  cases task with
  | subcribe => exact Subscribes.continues htask hcontinues
  | stream => exact htask
  | _ => trivial

theorem OutgoingConsistent.continues {outgoing : Outgoing}
    (houtgoing : OutgoingConsistent keyOf relay outgoing)
    (hcontinues : Continues relay next) :
    OutgoingConsistent keyOf next outgoing := by
  obtain ⟨channel, message, resume⟩ := outgoing
  obtain ⟨hmessage, hresume⟩ := houtgoing
  constructor
  · cases message with
    | subcribeResp =>
        obtain ⟨key, hsubscribes, hkey⟩ := hmessage
        exact ⟨key, hsubscribes.continues hcontinues, hkey⟩
    | streamResp => exact hmessage
    | _ => trivial
  · cases resume with
    | streamReq => exact ⟨hresume.1.continues hcontinues, hresume.2⟩
    | _ => trivial

/-- A delivered message must suit its channel. -/
theorem parties_deliver {channel : Socket} {connection : Connection}
    {message : ConnTask} (hparties : PartiesConsistent keyOf relay)
    (hreceiver : relay.receiver channel = some connection)
    (hmessage : MessageConsistent keyOf connection.handler.clientKey message) :
    Continues relay (relay.deliver channel connection message) ∧
      PartiesConsistent keyOf (relay.deliver channel connection message) := by
  have hcontinues : Continues relay
      (relay.deliver channel connection message) := by
    refine ⟨le_rfl, fun socket _ after hafter => ?_⟩
    rcases lookup_deliver hreceiver hafter with
      ⟨hbefore, -⟩ | ⟨rfl, -, hbefore, rfl⟩
    · exact ⟨after, hbefore, fun hne => ⟨hne, fun _ hkey => hkey⟩⟩
    · exact ⟨connection, hbefore, fun hne => ⟨hne, fun _ hkey => hkey⟩⟩
  refine ⟨hcontinues, fun socket after hafter => ?_, fun socket after hafter => ?_,
    fun envelope hmem => (hparties.tasks envelope hmem).continues hcontinues⟩
  · rcases lookup_deliver hreceiver hafter with
      ⟨hbefore, -⟩ | ⟨rfl, -, hbefore, rfl⟩
    · exact hparties.accepted socket after hbefore
    · exact hparties.accepted socket connection hbefore
  · rcases lookup_deliver hreceiver hafter with
      ⟨hbefore, -⟩ | ⟨rfl, hopen, hbefore, rfl⟩
    · exact hparties.connections socket after hbefore
    · obtain ⟨hhandler, hbuffer, -⟩ :=
        hparties.connections socket connection hbefore
      refine ⟨hhandler, fun other hother => ?_, fun hinitial => ?_⟩
      · rcases List.mem_append.mp hother with hold | hnew
        · exact hbuffer other hold
        · rw [List.mem_singleton.mp hnew]
          exact hmessage
      · rw [show connection.handler = .initial from hinitial] at hopen
        cases hopen

end Continuation

/-! ## The manager -/

section Handle

variable {keyOf : KeyOf} {relay : RelayState} {manager next : Manager}

/-- Fewer registrations and pending streams are consistent as well. -/
theorem ManagerConsistent.of_le (hmanager : ManagerConsistent keyOf manager)
    (hgeneration : next.nextServerGeneration = manager.nextServerGeneration)
    (hregistered : ∀ key, ∀ info ∈ registrations next.serverConnMap key,
      ∃ old ∈ registrations manager.serverConnMap key,
        old.generation = info.generation)
    (hpending : ∀ clientId stream,
      next.pendingStreams.lookup clientId = some stream →
        manager.pendingStreams.lookup clientId = some stream) :
    ManagerConsistent keyOf next where
  given generation key hkey := by
    rw [hgeneration]
    exact hmanager.given generation key hkey
  registered key info hinfo := by
    obtain ⟨old, hold, heq⟩ := hregistered key info hinfo
    rw [← heq]
    exact hmanager.registered key old hold
  pending clientId stream hlookup :=
    hmanager.pending clientId stream (hpending clientId stream hlookup)

theorem exists_generation_of_map_eq {before after : List ServerConnInfo}
    (hmap : after.map (·.generation) = before.map (·.generation)) :
    ∀ info ∈ after, ∃ old ∈ before, old.generation = info.generation := by
  intro info hinfo
  have hmem := List.mem_map_of_mem (f := (·.generation)) hinfo
  rw [hmap] at hmem
  exact List.mem_map.mp hmem

theorem ManagerConsistent.updateAny (predicate : ServerConnInfo → Bool)
    (update : ServerConnInfo → ServerConnInfo)
    (hmanager : ManagerConsistent keyOf manager)
    (hupdate : ∀ info, (update info).generation = info.generation) :
    ManagerConsistent keyOf { manager with
      serverConnMap :=
        updateAnyServerConn manager.serverConnMap predicate update } :=
  hmanager.of_le rfl
    (fun _ => exists_generation_of_map_eq
      (map_registrations_updateAnyServerConn _ hupdate))
    fun _ _ hlookup => hlookup

theorem ManagerConsistent.dropServerConn {key : ImutableKey}
    {connId : RemoteConnId} (hmanager : ManagerConsistent keyOf manager) :
    ManagerConsistent keyOf (manager.dropServerConn key connId) :=
  hmanager.of_le rfl
    (fun _ info hinfo => ⟨info, Manager.mem_of_mem_removeServerConn hinfo, rfl⟩)
    fun _ _ hlookup => hlookup

theorem ManagerConsistent.releaseNamespaceRateLimitIfIdle {nameSpace : UInt64}
    (hmanager : ManagerConsistent keyOf manager) :
    ManagerConsistent keyOf
      (manager.releaseNamespaceRateLimitIfIdle nameSpace) := by
  unfold Manager.releaseNamespaceRateLimitIfIdle
  dsimp only
  split
  · exact ⟨hmanager.given, hmanager.registered, hmanager.pending⟩
  · exact hmanager

theorem ManagerConsistent.deRegisterClientConn
    {serverId : Option RemoteConnId} {clientId : RemoteConnId}
    (hmanager : ManagerConsistent keyOf manager) :
    ManagerConsistent keyOf
      (manager.deRegisterClientConn serverId clientId) := by
  have hremoved : ManagerConsistent keyOf
      (manager.removePendingStream clientId) := by
    unfold Manager.removePendingStream
    split
    · exact hmanager
    · refine hmanager.of_le rfl (fun _ info hinfo => ⟨info, hinfo, rfl⟩)
        fun other stream hlookup => ?_
      rw [Table.lookup_erase] at hlookup
      split at hlookup
      · cases hlookup
      · exact hlookup
  have hdropped : ManagerConsistent keyOf
      ((serverId.elim (manager.removePendingStream clientId)
        (manager.removePendingStream clientId).deregisterConn).deregisterConn
          clientId) := by
    cases serverId <;>
      exact ⟨hremoved.given, hremoved.registered, hremoved.pending⟩
  rw [Manager.deRegisterClientConn_eq]
  cases manager.pendingStreams.lookup clientId
  · exact hdropped
  · exact hdropped.releaseNamespaceRateLimitIfIdle

/-- The pending entry is the candidate's generation under the subscriber's
key. -/
theorem ManagerConsistent.pendStream {subscription : Subscription}
    {candidate : ServerConnInfo} (hmanager : ManagerConsistent keyOf manager)
    (hcandidate : keyOf candidate.generation = some subscription.key) :
    ManagerConsistent keyOf (manager.pendStream subscription candidate) where
  given := hmanager.given
  registered := hmanager.registered
  pending clientId stream hlookup := by
    simp only [Manager.pendStream, Table.lookup_insert] at hlookup
    split at hlookup
    · cases hlookup
      exact hcandidate
    · exact hmanager.pending clientId stream hlookup

theorem ManagerConsistent.pruned (hmanager : ManagerConsistent keyOf manager)
    (hpruned : Manager.Pruned manager next) : ManagerConsistent keyOf next :=
  hmanager.of_le hpruned.nextServerGeneration
    (fun key info hinfo => ⟨info, hpruned.kept key info hinfo, rfl⟩)
    fun clientId stream hlookup => by rwa [hpruned.pendingStreams] at hlookup

/-- A registration takes the next generation for its key. -/
theorem ManagerConsistent.register
    (hmanager : ManagerConsistent keyOf manager) (key : ImutableKey)
    (info : ServerConnInfo) (taskManager : TaskManager Socket)
    (hgeneration : info.generation = manager.nextServerGeneration)
    (hfresh : manager.nextServerGeneration < MachineWord.u64Max) :
    let larger := Function.update keyOf manager.nextServerGeneration (some key)
    (∀ generation other, keyOf generation = some other →
        larger generation = some other) ∧
      ManagerConsistent larger
        (Manager.pushServerConn
          { manager with
            nextServerGeneration := max (MachineWord.satAdd
              MachineWord.u64Max manager.nextServerGeneration 1) 1
            taskManager } key info) := by
  have hnext : max (MachineWord.satAdd MachineWord.u64Max
      manager.nextServerGeneration 1) 1 = manager.nextServerGeneration + 1 := by
    rw [MachineWord.satAdd_of_le hfresh]
    exact max_eq_left (Nat.le_add_left 1 _)
  have hlarger : ∀ generation other, keyOf generation = some other →
      Function.update keyOf manager.nextServerGeneration (some key)
        generation = some other := by
    intro generation other hother
    have hlt := hmanager.given generation other hother
    rw [Function.update_of_ne hlt.ne]
    exact hother
  refine ⟨hlarger, ⟨fun generation other hother => ?_, fun other old hold => ?_,
    fun clientId stream hlookup =>
      hlarger _ _ (hmanager.pending clientId stream hlookup)⟩⟩
  · show generation < max _ 1
    rw [hnext]
    by_cases heq : generation = manager.nextServerGeneration
    · omega
    · rw [Function.update_of_ne heq] at hother
      have := hmanager.given generation other hother
      omega
  · simp only [Manager.pushServerConn, registrations_insert] at hold
    split at hold
    · rename_i heq
      rw [List.mem_append, List.mem_singleton] at hold
      rcases hold with hold | rfl
      · rw [heq]
        exact hlarger _ _ (hmanager.registered key old hold)
      · rw [hgeneration, heq, Function.update_self]
    · exact hlarger _ _ (hmanager.registered other old hold)

/-- A selected candidate has a generation of the subscriber's key. -/
theorem outgoing_selectServer {subscription : Subscription}
    {list : List ServerConnInfo}
    (hsubscribes : Subscribes relay subscription.key subscription.connSender)
    (hlist : ∀ info ∈ list,
      keyOf info.generation = some subscription.key) :
    OutgoingConsistent keyOf relay
      (manager.selectServer subscription list).2 := by
  obtain ⟨-, ⟨reason, hout⟩ | ⟨candidate, rest, channel, hsuffix, -, hout⟩⟩ :=
    manager.selectServer_cases subscription list
  · rw [hout]
    refine ⟨?_, trivial⟩
    simp only [Manager.subcribeRejected]
    split <;> trivial
  · rw [hout]
    exact ⟨trivial, hsubscribes,
      fun info hinfo => hlist info (hsuffix.subset hinfo)⟩

/-- A registration that is accepted does not take the last generation. -/
def GenerationLeft (settings : Settings) (manager : Manager) :
    ManagerTask → Prop
  | .register key _ _ isDatagram _ _ =>
      manager.registerFailure settings key isDatagram = none →
        manager.nextServerGeneration < MachineWord.u64Max
  | _ => True

instance (settings : Settings) (manager : Manager) (task : ManagerTask) :
    Decidable (GenerationLeft settings manager task) :=
  match task with
  | .register key _ _ isDatagram _ _ =>
      inferInstanceAs (Decidable
        (manager.registerFailure settings key isDatagram = none → _ < _))
  | .accept | .serverConnActivity _ _ | .subcribe _ _ _ _ | .stream _ _ _ _ _
  | .streamAck _ _ _ | .status _ _ _ _ | .deRegisterServerConn _ _
  | .retireServerConn _ _ _ | .deRegisterClientConn _ _ | .shutdown =>
      inferInstanceAs (Decidable True)

/-- What the handling of a task keeps, for a map with perhaps one more
generation. -/
theorem handle_consistent (settings : Settings) (now : Instant)
    {task : ManagerTask} (hmanager : ManagerConsistent keyOf manager)
    (htask : TaskConsistent relay task)
    (hleft : GenerationLeft settings manager task) :
    ∃ larger : KeyOf, (∀ generation key, keyOf generation = some key →
        larger generation = some key) ∧
      ManagerConsistent larger (manager.handle settings now task).1 ∧
      ∀ outgoing, (manager.handle settings now task).2 = .send outgoing →
        OutgoingConsistent larger relay outgoing := by
  have hsame : ∀ result : Manager × Outcome,
      ManagerConsistent keyOf result.1 →
        (∀ outgoing, result.2 = .send outgoing →
          OutgoingConsistent keyOf relay outgoing) →
        ∃ larger : KeyOf, (∀ generation key, keyOf generation = some key →
            larger generation = some key) ∧
          ManagerConsistent larger result.1 ∧
          ∀ outgoing, result.2 = .send outgoing →
            OutgoingConsistent larger relay outgoing :=
    fun _ hmanager houtgoing =>
      ⟨keyOf, fun _ _ hkey => hkey, hmanager, houtgoing⟩
  cases task with
  | accept =>
      exact hsame _ ⟨hmanager.given, hmanager.registered, hmanager.pending⟩
        (fun _ houtcome => by cases houtcome)
  | shutdown => exact hsame _ hmanager (fun _ houtcome => by cases houtcome)
  | serverConnActivity key connId =>
      refine hsame _ (hmanager.of_le rfl (fun _ => ?_) fun _ _ hlookup => hlookup)
        (fun _ houtcome => by cases houtcome)
      exact exists_generation_of_map_eq
        (map_registrations_updateServerConn _ fun _ => rfl)
  | status connSender request nameSpace connId =>
      refine hsame _ hmanager fun outgoing houtcome => ?_
      cases houtcome
      exact ⟨trivial, trivial⟩
  | deRegisterServerConn key connId =>
      exact hsame _ hmanager.dropServerConn.releaseNamespaceRateLimitIfIdle
        (fun _ houtcome => by cases houtcome)
  | deRegisterClientConn serverId clientId =>
      exact hsame _ hmanager.deRegisterClientConn
        (fun _ houtcome => by cases houtcome)
  | retireServerConn key connId reason =>
      refine hsame _ hmanager.dropServerConn.releaseNamespaceRateLimitIfIdle
        fun outgoing houtcome => ?_
      simp only [Manager.handle, Manager.retireServerConn] at houtcome
      split at houtcome <;> cases houtcome
  | register key connId needCodec isDatagram protocolVersion connSender =>
      simp only [Manager.handle, Manager.register]
      split
      · refine hsame _ hmanager fun outgoing houtcome => ?_
        cases houtcome
        exact ⟨trivial, trivial⟩
      · rename_i hnone
        obtain ⟨hlarger, hregistered⟩ := hmanager.register key
          ⟨connId, manager.nextServerGeneration, .healthy, needCodec,
            isDatagram, protocolVersion, now⟩
          (manager.taskManager.signUpConnSender connId connSender) rfl
          (hleft hnone)
        refine ⟨_, hlarger, hregistered, fun outgoing houtcome => ?_⟩
        cases houtcome
        exact ⟨trivial, trivial⟩
  | stream key stream serverId clientId serverGeneration =>
      simp only [Manager.handle, Manager.stream]
      split
      · exact hsame _ hmanager (fun _ houtcome => by cases houtcome)
      · rename_i expected hlookup
        split
        · exact hsame _ hmanager (fun _ houtcome => by cases houtcome)
        · rename_i hkey
          split
          · exact hsame _ hmanager (fun _ houtcome => by cases houtcome)
          · refine hsame _ (hmanager.updateAny _ _ fun _ => rfl)
              fun outgoing houtcome => ?_
            simp only [Manager.sendToClient] at houtcome
            split at houtcome <;> cases houtcome
            -- the pending entry's key is the stream's
            have hexpected := hmanager.pending clientId expected hlookup
            rw [← not_ne_iff.mp hkey, ← show stream.service.key = key from
              htask] at hexpected
            exact ⟨hexpected, trivial⟩
  | streamAck serverId clientId serverGeneration =>
      have hrecorded := hmanager.updateAny (·.connId == serverId)
        (·.active now) fun _ => rfl
      simp only [Manager.handle, Manager.streamAck]
      split
      · exact hsame _ hrecorded (fun _ houtcome => by cases houtcome)
      · split
        · exact hsame _ hrecorded (fun _ houtcome => by cases houtcome)
        · refine hsame _ (hrecorded.updateAny _ _ fun _ => rfl)
            fun outgoing houtcome => ?_
          simp only [Manager.sendToClient] at houtcome
          split at houtcome <;> cases houtcome
          exact ⟨trivial, trivial⟩
  | subcribe key connId connSender excluded =>
      obtain ⟨limits, ⟨message, hrefusal, hsubcribe⟩ | ⟨selected, hselected,
        hsubcribe⟩⟩ := manager.subcribe_cases settings now
          ⟨key, connId, connSender, excluded⟩
      · simp only [Manager.handle, hsubcribe]
        refine hsame (_, _) ?_ fun outgoing houtcome => ?_
        · exact ⟨hmanager.given, hmanager.registered, hmanager.pending⟩
        cases houtcome
        refine ⟨?_, trivial⟩
        cases message <;> trivial
      · simp only [Manager.handle, hsubcribe]
        have hlimited : ManagerConsistent keyOf
            { manager with namespaceRateLimits := limits } :=
          ⟨hmanager.given, hmanager.registered, hmanager.pending⟩
        subst hselected
        refine hsame (_, _) ?_ fun outgoing houtcome => ?_
        · exact hlimited.pruned (Manager.selectServer_cases ..).1
        cases houtcome
        refine outgoing_selectServer htask fun info hinfo => ?_
        exact hmanager.registered key info
          (by simpa using List.mem_of_mem_filter hinfo)

/-- What the rest of a handler keeps. -/
theorem resume_consistent (sent : Bool) {resume : Resume}
    (hmanager : ManagerConsistent keyOf manager)
    (hresume : ResumeConsistent keyOf relay resume) :
    ManagerConsistent keyOf (manager.resume sent resume).1 ∧
      ∀ outgoing, (manager.resume sent resume).2 = .send outgoing →
        OutgoingConsistent keyOf relay outgoing := by
  cases resume with
  | done => exact ⟨hmanager, fun _ houtcome => by cases houtcome⟩
  | subcribeResp connId =>
      cases sent with
      | true => exact ⟨hmanager, fun _ houtcome => by cases houtcome⟩
      | false =>
          exact ⟨⟨hmanager.given, hmanager.registered, hmanager.pending⟩,
            fun _ houtcome => by cases houtcome⟩
  | streamReq subscription candidate rest =>
      obtain ⟨hsubscribes, hinfos⟩ := hresume
      have hcandidate := hinfos candidate (List.mem_cons_self ..)
      cases sent with
      | true =>
          refine ⟨hmanager.pendStream hcandidate, fun outgoing houtcome => ?_⟩
          cases houtcome
          exact ⟨⟨_, hsubscribes, hcandidate⟩, trivial⟩
      | false =>
          refine ⟨hmanager.dropServerConn.pruned
            (Manager.selectServer_cases ..).1, fun outgoing houtcome => ?_⟩
          cases houtcome
          exact outgoing_selectServer hsubscribes fun info hinfo =>
            hinfos info (List.mem_cons_of_mem _ hinfo)

end Handle

/-! ## Steps -/

section Steps

variable {keyOf : KeyOf} {relay next : RelayState} {settings : Settings}

theorem consistent_settle {sender : Option Socket} {manager : Manager}
    {outcome : Outcome} (hparties : PartiesConsistent keyOf relay)
    (hmanager : ManagerConsistent keyOf manager)
    (hsend : ∀ outgoing, outcome = .send outgoing →
      OutgoingConsistent keyOf relay outgoing)
    (htrySend : ∀ channel message, outcome = .trySend channel message →
      ∀ asked, MessageConsistent keyOf asked message) :
    Consistent keyOf (relay.settle sender manager outcome) := by
  have hsettled : ∀ phase, PartiesConsistent keyOf
      { relay with manager, phase } := fun phase =>
    ⟨hparties.accepted, hparties.connections, fun envelope hmem =>
      (hparties.tasks envelope hmem).continues (.of_eq rfl rfl)⟩
  cases outcome with
  | done => exact ⟨hmanager, hsettled _, fun _ _ hphase => by cases hphase⟩
  | stop => exact ⟨hmanager, hsettled _, fun _ _ hphase => by cases hphase⟩
  | send outgoing =>
      refine ⟨hmanager, hsettled _, fun _ _ hphase => ?_⟩
      cases hphase
      exact (hsend outgoing rfl).continues (.of_eq rfl rfl)
  | trySend channel message =>
      obtain heq | ⟨connection, hreceiver, heq⟩ :=
        settle_trySend relay sender manager channel message
      · rw [heq]
        exact ⟨hmanager, hsettled _, fun _ _ hphase => by cases hphase⟩
      · rw [heq]
        exact ⟨hmanager, (parties_deliver (hsettled .idle) hreceiver
          (htrySend channel message rfl _)).2,
          fun _ _ hphase => by cases hphase⟩
  | spawn connId =>
      have hcontinues : Continues relay
          (relay.settle sender manager (.spawn connId)) := by
        refine ⟨Nat.le_succ _, fun socket hlt after hafter => ?_⟩
        simp only [settle, setConnection, Table.lookup_insert] at hafter
        rw [if_neg hlt.ne] at hafter
        exact ⟨after, hafter, fun hne => ⟨hne, fun _ hkey => hkey⟩⟩
      refine ⟨hmanager, ⟨fun socket after hafter => ?_,
        fun socket after hafter => ?_, fun envelope hmem =>
          (hparties.tasks envelope hmem).continues hcontinues⟩,
        fun _ _ hphase => by cases hphase⟩
      · simp only [settle, setConnection, Table.lookup_insert] at hafter ⊢
        split at hafter
        · rename_i heq
          rw [heq]
          exact Nat.lt_succ_self _
        · exact (hparties.accepted socket after hafter).trans
            (Nat.lt_succ_self _)
      · simp only [settle, setConnection, Table.lookup_insert] at hafter
        split at hafter
        · cases hafter
          exact ⟨trivial, by simp, fun _ => rfl⟩
        · exact hparties.connections socket after hafter

/-- A step of its own keeps a handler consistent. -/
theorem handler_step {socket : Socket} {connId : RemoteConnId}
    {event : ConnEvent} {before handler : Handler} {effect : Effect}
    (hbefore : HandlerConsistent keyOf before)
    (hstep : before.step socket connId event = some effect)
    (hrest : effect.rest = some handler) : HandlerConsistent keyOf handler := by
  cases before with
  | initial =>
      cases Handler.started_of_step rfl hstep hrest <;> trivial
  | client service excluded stage =>
      simp only [Handler.step] at hstep
      unfold clientStep at hstep
      split at hstep <;> cases hstep <;> cases hrest <;>
        trivial
  | server registration stage =>
      simp only [Handler.step] at hstep
      unfold serverStep at hstep
      split at hstep <;> cases hstep <;> cases hrest <;> trivial
  | status request nameSpace stage =>
      simp only [Handler.step] at hstep
      unfold statusStep at hstep
      split at hstep <;> cases hstep <;> cases hrest <;> trivial
  | detached writer pongs =>
      simp only [Handler.step] at hstep
      unfold detachedStep at hstep
      split at hstep <;> cases hstep <;> cases hrest <;> trivial
  | stream service dstId serverGeneration =>
      cases event <;> cases hstep
      cases hrest
  | admin =>
      cases event <;> cases hstep
      cases hrest
  | leaving guard => cases event <;> cases hstep <;> cases hrest

/-- An answer is about the service the subscriber asks for, and a stream is
accepted by a generation that the offer names too. -/
theorem handler_receive {late : Bool} {message : ConnTask}
    {before handler : Handler} {effect : Effect}
    (hbefore : HandlerConsistent keyOf before)
    (hmessage : MessageConsistent keyOf before.clientKey message)
    (hreceive : before.receive late message = some effect)
    (hrest : effect.rest = some handler) : HandlerConsistent keyOf handler := by
  have hstream : ∀ {service : ScopedService} {offer : Offer}
      {generation : ℕ} {stream : DataStream},
      keyOf offer.serverGeneration = some service.key →
        keyOf generation = some stream.service.key →
          generation = offer.serverGeneration →
            stream.service.key = service.key := by
    intro service offer generation stream hoffer hgeneration heq
    rw [heq, hoffer] at hgeneration
    exact (Option.some.inj hgeneration).symm
  unfold Handler.receive at hreceive
  split at hreceive <;> cases hreceive
  · cases hrest
    cases message <;> trivial
  · cases hrest
    cases message <;> trivial
  · cases hrest
    cases message with
    | subcribeResp => exact hmessage _ rfl
    | subcribeRetry =>
        simp only [receiveServer]
        split <;> trivial
    | _ => trivial
  · cases hrest
    cases message with
    | streamResp serverId serverGeneration stream =>
        simp only [receiveAck]
        split
        · rename_i heq
          exact hstream hbefore hmessage heq
        · trivial
    | streamAck =>
        simp only [receiveAck]
        split
        · exact hbefore
        · trivial
    | _ => trivial
  · cases hrest
    cases message with
    | streamResp serverId serverGeneration stream =>
        simp only [receiveStream]
        split
        · rename_i heq
          exact hstream hbefore hmessage heq
        · trivial
    | _ => trivial
  · cases hrest
    cases message <;> trivial
  · cases message <;> cases hrest <;> trivial

theorem connection_moves {socket : Socket} {before : Connection}
    {effect : Effect} {buffer : List ConnTask} {handler : Handler}
    (hbefore : ConnectionConsistent keyOf before)
    (hmoves : Moves socket before effect buffer)
    (hrest : effect.rest = some handler) :
    ConnectionConsistent keyOf { before with buffer, handler } := by
  have hhandler : HandlerConsistent keyOf handler := by
    cases hmoves with
    | step hstep => exact handler_step hbefore.handler hstep hrest
    | receive hbuffer hreceive =>
        refine handler_receive hbefore.handler (hbefore.buffer _ ?_) hreceive
          hrest
        rw [hbuffer]
        exact List.mem_cons_self ..
  rcases hmoves.cases hrest with
    ⟨hinitial, hstarted, rfl⟩ | ⟨-, hfollows⟩
  · have hempty := hbefore.fresh hinitial
    exact ⟨hhandler, by simp [hempty], fun _ => hempty⟩
  · refine ⟨hhandler, fun message hmem => ?_,
      fun hinitial => absurd hinitial hfollows.started⟩
    have hmessage := hbefore.buffer message (hmoves.suffix.subset hmem)
    cases message with
    | subcribeResp =>
        exact fun key hkey => hmessage key (hfollows.clientKey key hkey)
    | streamResp => exact hmessage
    | _ => trivial

theorem consistent_move {socket : Socket} {before : Connection}
    {effect : Effect} {buffer : List ConnTask}
    (hconsistent : Consistent keyOf relay)
    (hlookup : relay.connections.lookup socket = some before)
    (hmoves : Moves socket before effect buffer)
    (hmoved : Moved relay socket { before with buffer } effect next) :
    Consistent keyOf next := by
  obtain ⟨hmanager, hparties, hsending⟩ := hconsistent
  have haccepted := hparties.accepted socket before hlookup
  have hcontinues : Continues relay next := by
    refine ⟨hmoved.nextSocket.ge, fun other _ after hafter => ?_⟩
    rcases hmoved.lookup hafter with ⟨-, hother⟩ | ⟨rfl, handler, hrest, rfl⟩
    · exact ⟨after, hother, fun hne => ⟨hne, fun _ hkey => hkey⟩⟩
    · refine ⟨before, hlookup, fun hne => ?_⟩
      rcases hmoves.cases hrest with ⟨hinitial, -⟩ | ⟨-, hfollows⟩
      · exact absurd hinitial hne
      · exact ⟨hfollows.started, hfollows.clientKey⟩
  refine ⟨hmoved.manager ▸ hmanager, ⟨fun other after hafter => ?_,
    fun other after hafter => ?_, fun envelope hmem => ?_⟩,
    fun sender outgoing hphase => ?_⟩
  · rw [hmoved.nextSocket]
    rcases hmoved.lookup hafter with ⟨-, hother⟩ | ⟨rfl, handler, hrest, rfl⟩
    · exact hparties.accepted other after hother
    · exact haccepted
  · rcases hmoved.lookup hafter with ⟨-, hother⟩ | ⟨rfl, handler, hrest, rfl⟩
    · exact hparties.connections other after hother
    · have hconnection := connection_moves
        (hparties.connections other before hlookup) hmoves hrest
      exact hconnection
  · rcases hmoved.mem_tasks hmem with hold | ⟨task, htask, rfl⟩
    · exact (hparties.tasks envelope hold).continues hcontinues
    · have hsends := hmoves.sends htask
      generalize hbeforeHandler : before.handler = handler at hsends
      generalize hrest : effect.rest = rest at hsends
      cases hsends with
      | subcribe service excluded =>
          refine ⟨hmoved.nextSocket ▸ haccepted, fun after hafter => ?_⟩
          rcases hmoved.lookup hafter with
            ⟨hne, -⟩ | ⟨-, handler, hafterRest, rfl⟩
          · exact absurd rfl hne
          · rw [hrest] at hafterRest
            cases hafterRest
            exact ⟨by simp, fun asked hasked => (Option.some.inj hasked).symm⟩
      | stream => rfl
      | report registration report => cases report <;> trivial
      | deregister guard => cases guard <;> trivial
      | register | retire | status => trivial
  · rw [hmoved.phase] at hphase
    exact (hsending sender outgoing hphase).continues hcontinues

/-- What a step keeps, when a registration does not take the last
generation. -/
theorem consistent_step {event : Event} (hconsistent : Consistent keyOf relay)
    (hleft : ∀ now, event = .receive now →
      ∀ envelope ∈ relay.queue.head?,
        GenerationLeft settings relay.manager envelope.task)
    (hstep : Step relay settings event next) :
    ∃ larger, Consistent larger next := by
  obtain ⟨hmanager, hparties, hsending⟩ := hconsistent
  cases hstep with
  | arrive | shutdown =>
      refine ⟨keyOf, hmanager, ⟨hparties.accepted, hparties.connections,
        fun envelope hmem => ?_⟩, fun sender outgoing hphase =>
          (hsending sender outgoing hphase).continues (.of_eq rfl rfl)⟩
      have htask : TaskConsistent relay envelope.task := by
        simp only [enqueue, List.append_assoc, List.mem_append,
          List.mem_singleton] at hmem
        rcases hmem with hold | rfl | hold
        · exact hparties.tasks envelope (List.mem_append_left _ hold)
        · trivial
        · exact hparties.tasks envelope (List.mem_append_right _ hold)
      exact htask.continues (.of_eq rfl rfl)
  | flush hget =>
      refine ⟨keyOf, hmanager, ⟨hparties.accepted, hparties.connections,
        fun envelope hmem => ?_⟩, fun sender outgoing hphase =>
          (hsending sender outgoing hphase).continues (.of_eq rfl rfl)⟩
      have htask : TaskConsistent relay envelope.task := by
        refine hparties.tasks envelope ?_
        simp only [enqueue, List.append_assoc, List.mem_append,
          List.mem_singleton] at hmem ⊢
        rcases hmem with hold | rfl | hold
        · exact .inl hold
        · exact .inr (List.mem_of_getElem? hget)
        · exact .inr ((List.eraseIdx_sublist _ _).subset hold)
      exact htask.continues (.of_eq rfl rfl)
  | receive hphase hqueue =>
      rename_i now envelope queue
      have htask := hparties.tasks envelope (by rw [hqueue]; simp)
      obtain ⟨larger, hlarger, hmanager', houtgoing⟩ :=
        handle_consistent settings now hmanager htask
          (hleft now rfl envelope (by rw [hqueue]; rfl))
      refine ⟨larger, consistent_settle ⟨hparties.accepted,
        (hparties.mono hlarger).connections, fun other hmem => ?_⟩ hmanager'
        (fun outgoing houtcome =>
          (houtgoing outgoing houtcome).continues (.of_eq rfl rfl))
        fun channel message houtcome asked => ?_⟩
      · have hother := hparties.tasks other
          (by rw [hqueue]; exact List.mem_cons_of_mem _ hmem)
        exact hother.continues (.of_eq rfl rfl)
      · obtain ⟨-, -, reason, -, -, rfl⟩ :=
          Manager.handle_trySend _ houtcome
        trivial
  | sendClosed hphase hclosed =>
      obtain ⟨hmanager', houtgoing⟩ := resume_consistent false
        hmanager (hsending _ _ hphase).resume
      exact ⟨keyOf, consistent_settle hparties hmanager' houtgoing
        fun channel message houtcome =>
          absurd houtcome (Manager.resume_ne_trySend _)⟩
  | sendOpen hphase hopen hroom =>
      rename_i sender outgoing connection
      have hout := hsending _ _ hphase
      have hmessage : MessageConsistent keyOf connection.handler.clientKey
          outgoing.message := by
        obtain ⟨channel, message, resume⟩ := outgoing
        cases message with
        | subcribeResp =>
            obtain ⟨key, hsubscribes, hkey⟩ := hout.message
            intro asked hasked
            have heq := (hsubscribes.asks connection
              (receiver_eq_some.mp hopen).1).2 asked hasked
            rw [heq]
            exact hkey
        | streamResp => exact hout.message
        | _ => trivial
      obtain ⟨hdelivered, hparties'⟩ := parties_deliver hparties hopen hmessage
      obtain ⟨hmanager', houtgoing⟩ := resume_consistent true
        hmanager hout.resume
      exact ⟨keyOf, consistent_settle hparties' hmanager'
        (fun following houtcome =>
          (houtgoing following houtcome).continues hdelivered)
        fun channel message houtcome =>
          absurd houtcome (Manager.resume_ne_trySend _)⟩
  | move hlookup hmoves hmoved =>
      exact ⟨keyOf, consistent_move ⟨hmanager, hparties, hsending⟩ hlookup hmoves
        hmoved⟩

end Steps

/-! ## Runs -/

/-- The service a subscriber asked for, and the stream it was given. -/
def Handler.paired : Handler → Option (ScopedService × DataStream)
  | .client service _ (.responding _ given)
  | .client service _ (.forwarding _ given) => some (service, given)
  | _ => none

namespace RelayState

variable (settings : Settings) (relay : RelayState)

/-- Every subscriber that was given a stream was given one of its own
service. -/
def StreamsPaired : Prop :=
  ∀ socket connection, relay.connections.lookup socket = some connection →
    ∀ service stream, connection.handler.paired = some (service, stream) →
      stream.service.key = service.key ∧
        stream.service.nameSpace = service.nameSpace ∧
        stream.service.serviceName = service.serviceName

/-- The manager accepts no registration with the last generation. -/
def GenerationsLeft : Event → Prop
  | .receive _ => ∀ envelope ∈ relay.queue.head?,
      GenerationLeft settings relay.manager envelope.task
  | _ => True

instance (event : Event) : Decidable (relay.GenerationsLeft settings event) :=
  match event with
  | .receive _ => inferInstanceAs (Decidable (∀ _ ∈ relay.queue.head?, _))
  | .arrive | .shutdown | .send | .flush _ | .connection _ _ | .recv _ _ =>
      inferInstanceAs (Decidable True)

end RelayState

section Runs

variable {settings : Settings} {relay : RelayState}

theorem consistent_init : Consistent (fun _ => none) .init where
  manager := ⟨fun _ _ hgiven => by (cases hgiven),
    fun _ _ hinfo => absurd hinfo List.not_mem_nil,
    fun _ _ hlookup => by (cases hlookup)⟩
  parties := ⟨fun _ _ hlookup => by (cases hlookup),
    fun _ _ hlookup => by (cases hlookup),
    fun _ htask => absurd htask List.not_mem_nil⟩
  sending _ _ hphase := by cases hphase

theorem consistent_of_reachable
    (hreachable : ((relaySystem settings).restrict
      (GenerationsLeft settings)).Reachable relay) :
    ∃ keyOf, Consistent keyOf relay := by
  refine Transition.System.Reachable.invariant
    (motive := fun relay => ∃ keyOf, Consistent keyOf relay) ?_ ?_ hreachable
  · rintro _ rfl
    exact ⟨_, consistent_init⟩
  · rintro state event next ⟨keyOf, hconsistent⟩ ⟨hleft, hstep⟩
    refine consistent_step hconsistent ?_ (step_of_step hstep)
    rintro now rfl
    exact hleft

/-- As long as generations are not used up, a subscriber is only given streams
of the service it asked for. -/
theorem streamsPaired_of_reachable
    (hreachable : ((relaySystem settings).restrict
      (GenerationsLeft settings)).Reachable relay) :
    relay.StreamsPaired := by
  obtain ⟨keyOf, hconsistent⟩ := consistent_of_reachable hreachable
  intro socket connection hlookup service stream hpaired
  have hhandler :=
    (hconsistent.parties.connections socket connection hlookup).handler
  have hkey : stream.service.key = service.key := by
    unfold Handler.paired at hpaired
    split at hpaired
    · rename_i hresponding
      rw [hresponding] at hhandler
      cases hpaired
      exact hhandler
    · rename_i hforwarding
      rw [hforwarding] at hhandler
      cases hpaired
      exact hhandler
    · cases hpaired
  exact ⟨hkey, ScopedService.eq_of_key_eq hkey⟩

/-! ## A stream -/

/-- A provider registers and answers a subscriber with generation 0. -/
def pairingHistory : List Event :=
  connect 0 (adminRequest (.register ['a'] false false none)) ++
    [.send, .recv 0 false] ++
    connect 1 (adminRequest (.subcribe ['a'])) ++
    [.send, .send, .recv 1 false] ++
    connect 2 (adminRequest (.stream ['a'] (.ofNat 1) 0)) ++
    [.send, .recv 1 false]

/-- The subscriber was given the stream of socket 2. -/
theorem streamsPaired_pairingHistory :
    ∃ relay : RelayState, relay.StreamsPaired ∧
      ((relay.connections.lookup 1).bind (·.handler.paired)).map
        (·.2.socket) = some 2 := by
  have hrun : (pairingHistory.foldlM (Transition.System.checked
      (GenerationsLeft Settings.default) (RelayState.step Settings.default))
        RelayState.init).map (fun relay =>
          ((relay.connections.lookup 1).bind (·.handler.paired)).map
            (·.2.socket)) = some (some 2) := by
    decide +kernel
  obtain ⟨relay, hfold, hsocket⟩ := Option.map_eq_some_iff.mp hrun
  exact ⟨relay, streamsPaired_of_reachable
    (Transition.System.reachable_of_foldlM Transition.System.checked_sound rfl
      hfold), hsocket⟩

/-! ## The last generation -/

/-- A relay without connections that has given out all generations below one. -/
def drained (generation : ℕ) (socket : Socket) : RelayState where
  manager := ⟨⟨⟨.ofNat 1⟩, [.default], ∅⟩, ∅, ∅, ∅, ∅, generation⟩
  phase := .idle
  queue := []
  deferred := []
  connections := ∅
  nextSocket := socket
  clock := 0
  retired := []

/-- A provider registers and leaves. -/
def registerOnce (socket : Socket) : List Event :=
  connect socket (adminRequest (.register ['a'] false false none)) ++
    [.send, .recv socket false, .connection socket .close,
      .connection socket .post, .receive 0]

/-- A relay with one connection, the latest. -/
def alone (manager : Manager) (phase : Phase) (queue : List Envelope)
    (socket : Socket) (handler : Handler) (buffer : List ConnTask) :
    RelayState where
  manager := manager
  phase := phase
  queue := queue
  deferred := []
  connections := AList.singleton socket ⟨.default, handler, buffer⟩
  nextSocket := socket + 1
  clock := 0
  retired := []

section Alone

variable {manager : Manager} {phase : Phase} {queue : List Envelope}
  {socket : Socket} {handler after : Handler} {buffer : List ConnTask}
  {event : ConnEvent} {task : ManagerTask}

theorem lookup_alone :
    (alone manager phase queue socket handler buffer).connections.lookup
      socket = some ⟨.default, handler, buffer⟩ := by
  rw [alone, ← AList.insert_empty, AList.lookup_insert]

theorem setConnection_alone {buffer' : List ConnTask} :
    (alone manager phase queue socket handler buffer).setConnection socket
      ⟨.default, after, buffer'⟩ =
        alone manager phase queue socket after buffer' := by
  simp [alone, setConnection]

theorem alone_stay
    (heffect : handler.step socket .default event = some (.stay after)) :
    (alone manager phase queue socket handler buffer).step Settings.default
      (.connection socket event) =
        some (alone manager phase queue socket after buffer) := by
  simp only [RelayState.step, lookup_alone, Option.bind_eq_bind,
    Option.bind_some, heffect, applyEffect, Effect.task, Effect.rest,
    putHandler, setConnection_alone]

theorem alone_post
    (heffect : handler.step socket .default event = some (.post task after)) :
    (alone manager phase [] socket handler buffer).step Settings.default
      (.connection socket event) =
        some (alone manager phase [⟨some socket, task⟩] socket after
          buffer) := by
  have hroom : (alone manager phase [] socket handler buffer).hasRoom = true :=
    rfl
  simp only [RelayState.step, lookup_alone, Option.bind_eq_bind,
    Option.bind_some, heffect, applyEffect, Effect.task, Effect.rest,
    putHandler, setConnection_alone, Effect.awaitsRoom, hroom]
  rfl

theorem alone_send {sender : Option Socket} {message : ConnTask}
    (hopen : handler.isOpen = true) :
    (alone manager (.sending sender ⟨socket, message, .done⟩) queue socket
      handler []).step Settings.default .send =
        some (alone manager .idle queue socket handler [message]) := by
  have hreceiver : (alone manager (.sending sender ⟨socket, message, .done⟩)
      queue socket handler []).receiver socket =
        some ⟨.default, handler, []⟩ :=
    receiver_eq_some.mpr ⟨lookup_alone, hopen⟩
  have hroom : isFull ⟨.default, handler, []⟩ = false := by
    have := Handler.five_le_capacity hopen
    simp only [isFull, List.length_nil, decide_eq_false_iff_not, not_le]
    omega
  have hphase : (alone manager (.sending sender ⟨socket, message, .done⟩)
      queue socket handler []).phase =
        .sending sender ⟨socket, message, .done⟩ := rfl
  rw [RelayState.step, send, hphase]
  simp only [hreceiver, hroom, deliver, setConnection_alone]
  rfl

theorem alone_recv {message : ConnTask}
    (heffect : handler.receive false message = some (.stay after)) :
    (alone manager phase queue socket handler [message]).step Settings.default
      (.recv socket false) =
        some (alone manager phase queue socket after []) := by
  simp only [RelayState.step, lookup_alone, Option.bind_eq_bind,
    Option.bind_some, List.head?_cons, heffect, applyEffect, Effect.task,
    Effect.rest, putHandler, List.tail_cons, setConnection_alone]

theorem alone_leave {guard : Guard} :
    (alone manager .idle [] socket (.leaving guard) []).step Settings.default
      (.connection socket .post) =
        some { drained 0 (socket + 1) with
          manager
          queue := [⟨some socket, guard.deregisterTask .default⟩] } := by
  have hroom : (alone manager .idle [] socket (.leaving guard) []).hasRoom =
      true := rfl
  have herase : (alone manager .idle [] socket (.leaving guard)
      []).connections.erase socket = ∅ := by
    rw [alone]
    exact AList.ext (List.kerase_cons_eq rfl)
  simp only [RelayState.step, lookup_alone, Option.bind_eq_bind,
    Option.bind_some, Handler.step, applyEffect, Effect.task, Effect.rest,
    Effect.awaitsRoom, hroom, putHandler, dropConnection, herase]
  rfl

end Alone

theorem registerOnce_drained {generation : ℕ}
    (hleft : generation < MachineWord.u64Max) (socket : Socket) :
    (registerOnce socket).foldlM (RelayState.step Settings.default)
      (drained generation socket) =
        some (drained (generation + 1) (socket + 1)) := by
  have hnext : max (MachineWord.satAdd MachineWord.u64Max generation 1) 1 =
      generation + 1 := by
    rw [MachineWord.satAdd_of_le hleft]
    exact max_eq_left (Nat.le_add_left 1 _)
  let service : ScopedService :=
    ⟨.fromLease Auth.adminKeyId true 0, 0, ['a'], ['a'], rfl⟩
  let registration : ServerRegistration := ⟨service, false, false, 1⟩
  let fresh : Manager := ⟨⟨⟨.ofNat 1⟩, [], ∅⟩, ∅, ∅, ∅, ∅, generation⟩
  let registered : Manager :=
    ⟨⟨⟨.ofNat 1⟩, [], AList.singleton .default socket⟩,
      AList.singleton ['a']
        [⟨.default, generation, .healthy, false, false, 1, 0⟩], ∅, ∅, ∅,
      max (MachineWord.satAdd MachineWord.u64Max generation 1) 1⟩
  have harrive : (drained generation socket).step Settings.default .arrive =
      some { drained generation socket with queue := [⟨none, .accept⟩] } := rfl
  have haccept : RelayState.step Settings.default
      { drained generation socket with queue := [⟨none, .accept⟩] }
        (.receive 0) = some (alone fresh .idle [] socket .initial []) := rfl
  have hstart : (alone fresh .idle [] socket .initial []).step
      Settings.default (.connection socket
        (adminRequest (.register ['a'] false false none))) =
        some (alone fresh .idle [] socket
          (.server registration .registering) []) := alone_stay rfl
  have hpost : (alone fresh .idle [] socket (.server registration .registering)
      []).step Settings.default (.connection socket .post) =
        some (alone fresh .idle [⟨some socket, .register ['a'] .default false
          false 1 socket⟩] socket (.server registration .awaiting) []) :=
    alone_post rfl
  have hregister : (alone fresh .idle [⟨some socket, .register ['a'] .default
      false false 1 socket⟩] socket (.server registration .awaiting) []).step
        Settings.default (.receive 0) =
          some (alone registered (.sending (some socket) ⟨socket,
            .registerResp generation 1 15000, .done⟩) [] socket
              (.server registration .awaiting) []) := rfl
  have hsend : (alone registered (.sending (some socket) ⟨socket,
      .registerResp generation 1 15000, .done⟩) [] socket
        (.server registration .awaiting) []).step Settings.default .send =
          some (alone registered .idle [] socket (.server registration .awaiting)
            [.registerResp generation 1 15000]) := alone_send rfl
  have hrecv : (alone registered .idle [] socket (.server registration .awaiting)
      [.registerResp generation 1 15000]).step Settings.default
        (.recv socket false) = some (alone registered .idle [] socket
          (.server registration (.serving generation .reading .writing 0)) []) :=
    alone_recv rfl
  have hclose : (alone registered .idle [] socket (.server registration
      (.serving generation .reading .writing 0)) []).step Settings.default
        (.connection socket .close) = some (alone registered .idle [] socket
          (.leaving (.server ['a'])) []) := alone_stay rfl
  have hleave : (alone registered .idle [] socket (.leaving (.server ['a']))
      []).step Settings.default (.connection socket .post) =
        some { drained 0 (socket + 1) with
          manager := registered
          queue := [⟨some socket, .deRegisterServerConn ['a'] .default⟩] } :=
    alone_leave
  have hdrain : RelayState.step Settings.default
      { drained 0 (socket + 1) with
        manager := registered
        queue := [⟨some socket, .deRegisterServerConn ['a'] .default⟩] }
      (.receive 0) = some (drained (max (MachineWord.satAdd
        MachineWord.u64Max generation 1) 1) (socket + 1)) := rfl
  rw [hnext] at hdrain
  simp only [registerOnce, connect, List.cons_append, List.nil_append,
    List.foldlM_cons, List.foldlM_nil, Option.bind_eq_bind, Option.bind_some,
    harrive, haccept, hstart, hpost, hregister, hsend, hrecv, hclose, hleave,
    hdrain]
  rfl

/-- Generations are used up one by one. -/
theorem reachable_drained (generation : ℕ)
    (hle : generation + 2 ≤ MachineWord.u64Max) :
    (relaySystem Settings.default).Reachable
      (drained (generation + 2) (generation + 1)) := by
  have hsound : ∀ state event next,
      RelayState.step Settings.default state event = some next →
        (relaySystem Settings.default).step state event next :=
    fun _ _ _ hstep => hstep
  induction generation with
  | zero =>
      have hfold : (registerOnce 0).foldlM (RelayState.step Settings.default)
          RelayState.init = some (drained 2 1) := rfl
      exact Transition.System.reachable_of_foldlM hsound rfl hfold
  | succ generation ih =>
      exact (ih (by omega)).run (Transition.System.run_of_foldlM hsound
        (registerOnce_drained (by omega) (generation + 1)))

/-- The subscriber is offered a provider, gives up on it and has it retired. -/
def retireOffered (socket : Socket) : List Event :=
  [.send, .send, .recv socket false, .connection socket .timeout,
    .connection socket .post, .receive 0]

/-- Providers with identities 0 to 3; the third is the guest's. -/
def lastProviders (first : Socket) : List Event :=
  let provider := adminRequest (.register ['a'] false false none)
  let guest := guestRequest (.register ['b'] false false none)
  let registered : List Event := [.send, .recv (first + 3) false,
    .connection (first + 3) .written]
  List.flatten [connect first provider, [.send], connect (first + 1) provider,
    [.send], connect (first + 2) guest, [.send], connect (first + 3) provider,
    registered]

/-- Identity 3 is retired and given to a subscriber; its former holder leaves, and
the identity is given out once more. -/
def identityReused (first : Socket) : List Event :=
  let subscriber := adminRequest (.subcribe ['a'])
  let leaves : List Event := [.send, .send, .recv (first + 3) false,
    .connection (first + 3) .written, .recv (first + 3) false,
    .connection (first + 3) .post, .receive 0, .arrive, .receive 0]
  List.flatten [connect (first + 4) subscriber, retireOffered (first + 4),
    connect (first + 5) subscriber, leaves]

/-- The subscriber asks again, and its channel is signed up; the guest's subscriber
replaces the pending entry, and the guest's stream goes to that channel. -/
def identityCrosses (first : Socket) : List Event :=
  let asksAgain : List Event := [.recv (first + 5) false,
    .connection (first + 5) .timeout, .connection (first + 5) .post, .receive 0,
    .connection (first + 5) .post, .receive 0, .send, .send,
    .recv (first + 5) false]
  let replaces : List Event :=
    [.connection (first + 6) (guestRequest (.subcribe ['b'])),
      .connection (first + 6) .post, .receive 0, .send, .send]
  List.flatten [asksAgain, replaces,
    connect (first + 7) (guestRequest (.stream ['b'] (.ofNat 3) 0)),
    [.send, .recv (first + 5) false]]

/-- Providers of two namespaces share the last generation, and two subscribers
of the two services an identity. -/
def crossingHistory (first : Socket) : List Event :=
  lastProviders first ++ identityReused first ++ identityCrosses first

/-- With the last generation shared, a stream crosses namespaces. -/
theorem crossingHistory_crosses :
    ∃ relay, (relaySystem Settings.default).Reachable relay ∧
      ¬relay.StreamsPaired := by
  have hrun : ((crossingHistory (MachineWord.u64Max - 1)).foldlM
      (RelayState.step Settings.default)
        (drained MachineWord.u64Max (MachineWord.u64Max - 1))).map
      (fun relay => ((relay.connections.lookup (MachineWord.u64Max + 4)).bind
        (·.handler.paired)).map fun paired =>
          (paired.1.nameSpace, paired.2.service.nameSpace)) =
        some (some (0, 5)) := by
    decide +kernel
  obtain ⟨relay, hfold, hpaired⟩ := Option.map_eq_some_iff.mp hrun
  refine ⟨relay, (reachable_drained (MachineWord.u64Max - 2) (by decide)).run
    (Transition.System.run_of_foldlM (fun _ _ _ hstep => hstep) hfold),
    fun hall => ?_⟩
  obtain ⟨⟨service, stream⟩, hservice, hnameSpaces⟩ :=
    Option.map_eq_some_iff.mp hpaired
  obtain ⟨connection, hlookup, hhandler⟩ := Option.bind_eq_some_iff.mp hservice
  have heq := (hall _ connection hlookup service stream hhandler).2.1
  simp only [Prod.mk.injEq] at hnameSpaces
  rw [hnameSpaces.1, hnameSpaces.2] at heq
  cases heq

end Runs

end PbMapper.Relay

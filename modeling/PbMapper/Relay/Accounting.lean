import PbMapper.Relay.Charges

/-!
# Stream accounting

Along a run the counter of a namespace is the number of its pending streams,
and every pending stream belongs to a subscriber whose deregistration is still
to come; so once the subscribers of a namespace have left, it is charged for
nothing.
-/

namespace PbMapper.Relay

open RelayState

/-! ## Subscribers and their deregistrations -/

/-- A connection whose first frame subscribes, with its namespace. -/
def subscribers (_ : RelayState) : Event → List (Socket × UInt64)
  | .connection socket (.request init) =>
      match dispatch init with
      | .ok (.client service _ _) => [(socket, service.nameSpace)]
      | _ => []
  | _ => []

/-- The deregistration of a connection that is not a provider's is still to
come: its handler holds the guard, or the task is among `tasks`. -/
def Departs (parties : Parties) (tasks : List Envelope) (socket : Socket)
    (connId : RemoteConnId) : Prop :=
  (∃ handler serverId, parties socket = some (connId, handler) ∧
      handler.guard = some (.client serverId)) ∨
    ∃ serverId, ⟨some socket, .deRegisterClientConn serverId connId⟩ ∈ tasks

/-- A subscriber of the namespace is still to deregister the identity. -/
def Owner (log : List (Socket × UInt64)) (parties : Parties)
    (tasks : List Envelope) (nameSpace : UInt64) (connId : RemoteConnId) :
    Prop :=
  ∃ socket, (socket, nameSpace) ∈ log ∧ Departs parties tasks socket connId

/-- Every pending stream, and every subscription on its way, has an owner.
Deregistrations follow the subscriptions of their connection. -/
structure StreamsOwned (relay : RelayState) (log : List (Socket × UInt64)) :
    Prop where
  accepted : ∀ socket, relay.nextSocket ≤ socket → relay.parties socket = none
  clients : ∀ socket connId handler,
    relay.parties socket = some (connId, handler) →
      ∀ key ∈ handler.clientKey, (socket, keyNamespace key) ∈ log
  pending : ∀ connId stream,
    relay.manager.pendingStreams.lookup connId = some stream →
      Owner log relay.parties (relay.queue ++ relay.deferred)
        (keyNamespace stream.key) connId
  queued : ∀ sender key connId connSender excluded rest,
    ⟨sender, .subcribe key connId connSender excluded⟩ :: rest <:+
        relay.queue →
      Owner log relay.parties (rest ++ relay.deferred) (keyNamespace key) connId
  deferred : ∀ envelope ∈ relay.deferred, ∃ guard connId,
    envelope.task = Guard.deregisterTask connId guard
  sending : ∀ sender outgoing subscription candidate rest,
    relay.phase = .sending sender outgoing →
      outgoing.resume = .streamReq subscription candidate rest →
        Owner log relay.parties (relay.queue ++ relay.deferred)
          (keyNamespace subscription.key) subscription.connId

section Owners

variable {settings : Settings} {relay next : RelayState} {event : Event}
  {log : List (Socket × UInt64)} {parties : Parties} {tasks : List Envelope}
  {nameSpace : UInt64} {connId : RemoteConnId}

theorem Departs.mono {socket : Socket} {more : List Envelope}
    (hdeparts : Departs parties tasks socket connId) (hmore : tasks ⊆ more) :
    Departs parties more socket connId :=
  hdeparts.imp_right fun ⟨serverId, hmem⟩ => ⟨serverId, hmore hmem⟩

theorem Owner.mono {more : List Envelope} {longer : List (Socket × UInt64)}
    (howner : Owner log parties tasks nameSpace connId)
    (hlog : log ⊆ longer) (hmore : tasks ⊆ more) :
    Owner longer parties more nameSpace connId := by
  obtain ⟨socket, hmem, hdeparts⟩ := howner
  exact ⟨socket, hlog hmem, hdeparts.mono hmore⟩

/-- A handler keeps its guard, or its deregistration joins the tasks. -/
theorem Departs.moves {socket other : Socket} {moved : RemoteConnId}
    {before : Handler} {effect : Effect}
    (hbefore : parties other = some (moved, before))
    (hmoves : HandlerMove other moved before effect event)
    (hdeparts : Departs parties tasks socket connId) :
    Departs (Function.update parties other (effect.rest.map (moved, ·)))
      (tasks ++ (effect.task moved).toList.map (⟨some other, ·⟩))
      socket connId := by
  rcases hdeparts with ⟨handler, serverId, hparty, hguard⟩ | ⟨serverId, hmem⟩
  · by_cases heq : socket = other
    · subst heq
      obtain ⟨rfl, rfl⟩ : moved = connId ∧ before = handler := by
        rw [hparty] at hbefore
        cases hbefore
        exact ⟨rfl, rfl⟩
      have hkept : (∃ after kept, effect.rest = some after ∧
            after.guard = some kept ∧ kept.isClient = true) ∨
          ∃ last : Guard, effect.task moved =
            some (last.deregisterTask moved) ∧ last.isClient = true := by
        cases hmoves with
        | step hstep => exact Handler.step_guard hguard hstep
        | receive hreceive => exact .inl (Handler.receive_guard hguard hreceive)
      rcases hkept with ⟨after, kept, hrest, hafter, hclient⟩ |
        ⟨last, htask, hclient⟩
      · cases kept with
        | server key => cases hclient
        | client serverId' =>
            exact .inl ⟨after, serverId', by simp [hrest], hafter⟩
      · cases last with
        | server key => cases hclient
        | client serverId' =>
            refine .inr ⟨serverId', List.mem_append_right _ ?_⟩
            rw [htask]
            exact List.mem_singleton.mpr rfl
    · refine .inl ⟨handler, serverId, ?_, hguard⟩
      rw [Function.update_of_ne heq]
      exact hparty
  · exact .inr ⟨serverId, List.mem_append_left _ hmem⟩

theorem Owner.of_parties {after : Parties}
    (howner : Owner log parties tasks nameSpace connId)
    (hkept : ∀ socket party, parties socket = some party →
      after socket = some party) :
    Owner log after tasks nameSpace connId := by
  obtain ⟨socket, hmem, hdeparts⟩ := howner
  refine ⟨socket, hmem, hdeparts.imp_left ?_⟩
  rintro ⟨handler, serverId, hparty, hguard⟩
  exact ⟨handler, serverId, hkept _ _ hparty, hguard⟩

theorem cons_suffix_append {Task : Type*} {head : Task}
    {rest queue added : List Task} (hsuffix : head :: rest <:+ queue ++ added) :
    (∃ front, head :: front <:+ queue ∧ rest = front ++ added) ∨
      head :: rest <:+ added := by
  obtain ⟨earlier, happend⟩ := hsuffix
  rcases List.append_eq_append_iff.mp happend with
    ⟨middle, rfl, heq⟩ | ⟨middle, rfl, heq⟩
  · cases middle with
    | nil => exact .inr ⟨[], by simpa using heq⟩
    | cons first front =>
        obtain ⟨rfl, rfl⟩ := List.cons.inj heq
        exact .inl ⟨front, ⟨earlier, rfl⟩, rfl⟩
  · exact .inr ⟨middle, heq.symm⟩

/-- A step that leaves the manager alone and makes the queue longer. -/
theorem StreamsOwned.extends {added : List Envelope}
    {longer : List (Socket × UInt64)} (howned : StreamsOwned relay log)
    (hrests : ManagerRests relay next) (hqueue : next.queue = relay.queue ++ added)
    (howner : ∀ later nameSpace connId,
      Owner log relay.parties (later ++ relay.deferred) nameSpace connId →
        Owner longer next.parties (later ++ added ++ next.deferred) nameSpace
          connId)
    (haccepted : ∀ socket, next.nextSocket ≤ socket →
      next.parties socket = none)
    (hclients : ∀ socket connId handler,
      next.parties socket = some (connId, handler) →
        ∀ key ∈ handler.clientKey, (socket, keyNamespace key) ∈ longer)
    (hdeferred : ∀ envelope ∈ next.deferred, ∃ guard connId,
      envelope.task = Guard.deregisterTask connId guard)
    (hadded : ∀ sender key connId connSender excluded rest,
      ⟨sender, .subcribe key connId connSender excluded⟩ :: rest <:+ added →
        Owner longer next.parties (rest ++ next.deferred) (keyNamespace key)
          connId) :
    StreamsOwned next longer where
  accepted := haccepted
  clients := hclients
  pending connId stream hlookup := by
    rw [hrests.manager] at hlookup
    rw [hqueue]
    exact howner _ _ _ (howned.pending connId stream hlookup)
  queued sender key connId connSender excluded rest hsuffix := by
    rw [hqueue] at hsuffix
    rcases cons_suffix_append hsuffix with ⟨front, hfront, rfl⟩ | hnew
    · exact howner _ _ _ (howned.queued _ _ _ _ _ _ hfront)
    · exact hadded _ _ _ _ _ _ hnew
  deferred := hdeferred
  sending sender outgoing subscription candidate rest hphase hresume := by
    rw [hrests.phase] at hphase
    rw [hqueue]
    exact howner _ _ _ (howned.sending _ _ _ _ _ hphase hresume)

/-- A subscriber's first frame is in the log. -/
theorem mem_subscribers_of_started {socket : Socket} {before : Handler}
    {effect : Effect} {after : Handler} {key : ImutableKey}
    (hmoves : HandlerMove socket connId before effect event)
    (hrest : effect.rest = some after) (hkey : after.clientKey = some key)
    (hnone : before.clientKey ≠ some key) :
    (socket, keyNamespace key) ∈ subscribers relay event := by
  cases hmoves with
  | receive hreceive =>
      exact absurd ((Handler.receive_follows hreceive hrest).clientKey key hkey)
        hnone
  | @step event hstep =>
      by_cases hinitial : before = .initial
      · subst hinitial
        cases event <;> cases hstep
        · cases hrest
        · rename_i init
          unfold start at hrest
          split at hrest <;> cases hrest
          rename_i hdispatch
          cases after with
          | client service excluded stage =>
              cases hkey
              simp only [subscribers, hdispatch, List.mem_singleton]
              rw [keyNamespace, service.split_key]
          | _ => cases hkey
      · exact absurd
          ((Handler.step_follows hinitial hstep hrest).clientKey key hkey) hnone

theorem StreamsOwned.moves {socket : Socket} {moved : RemoteConnId}
    {before : Handler} {effect : Effect} (howned : StreamsOwned relay log)
    (hbefore : relay.parties socket = some (moved, before))
    (hmoves : HandlerMove socket moved before effect event)
    (hrests : ManagerRests relay next)
    (hparties : next.parties =
      Function.update relay.parties socket (effect.rest.map (moved, ·)))
    (htasks : (next.queue =
          relay.queue ++ (effect.task moved).toList.map (⟨some socket, ·⟩) ∧
        next.deferred = relay.deferred) ∨
      (next.queue = relay.queue ∧ next.deferred =
        relay.deferred ++ (effect.task moved).toList.map (⟨some socket, ·⟩) ∧
        effect.awaitsRoom = false)) :
    StreamsOwned next (log ++ subscribers relay event) := by
  have hlog : log ⊆ log ++ subscribers relay event :=
    List.subset_append_left _ _
  have hdeparts : ∀ tasks nameSpace connId,
      Owner log relay.parties tasks nameSpace connId →
        Owner (log ++ subscribers relay event) next.parties
          (tasks ++ (effect.task moved).toList.map (⟨some socket, ·⟩))
          nameSpace connId := by
    rintro tasks nameSpace connId ⟨owner, hmem, howner⟩
    rw [hparties]
    exact ⟨owner, hlog hmem, howner.moves hbefore hmoves⟩
  have haccepted : ∀ other, next.nextSocket ≤ other →
      next.parties other = none := by
    intro other hle
    rw [hrests.nextSocket] at hle
    have hnone := howned.accepted other hle
    have hne : other ≠ socket := by
      rintro rfl
      rw [hnone] at hbefore
      cases hbefore
    rw [hparties, Function.update_of_ne hne]
    exact hnone
  have hclients : ∀ other connId handler,
      next.parties other = some (connId, handler) →
        ∀ key ∈ handler.clientKey,
          (other, keyNamespace key) ∈ log ++ subscribers relay event := by
    intro other connId handler hparty key hkey
    rw [hparties] at hparty
    by_cases heq : other = socket
    · subst heq
      rw [Function.update_self] at hparty
      obtain ⟨after, hrest, hafter⟩ := Option.map_eq_some_iff.mp hparty
      cases hafter
      by_cases hkept : before.clientKey = some key
      · exact hlog (howned.clients _ _ _ hbefore key hkept)
      · exact List.mem_append_right _
          (mem_subscribers_of_started hmoves hrest hkey hkept)
    · rw [Function.update_of_ne heq] at hparty
      exact hlog (howned.clients _ _ _ hparty key hkey)
  have hsubcribe : ∀ key connId connSender excluded tasks,
      effect.task moved = some (.subcribe key connId connSender excluded) →
        Owner (log ++ subscribers relay event) next.parties tasks
          (keyNamespace key) connId := by
    intro key connId connSender excluded tasks htask
    cases hmoves with
    | receive hreceive =>
        rw [Handler.receive_task hreceive] at htask
        cases htask
    | step hstep =>
        have hsends := Handler.step_sends hstep htask
        generalize hsent : ManagerTask.subcribe key connId connSender excluded =
          sent at hsends
        generalize hrest : effect.rest = rest at hsends hparties
        cases hsends with
        | subcribe service =>
            cases hsent
            have hlogged := howned.clients _ _ _ hbefore service.key rfl
            refine ⟨socket, hlog hlogged, .inl
              ⟨.client service excluded .awaitingServer, none, ?_, rfl⟩⟩
            rw [hparties, Function.update_self]
            rfl
        | deregister guard => cases guard <;> cases hsent
        | report registration report => cases report <;> cases hsent
        | _ => cases hsent
  rcases htasks with ⟨hqueue, hdeferred⟩ | ⟨hqueue, hdeferred, hawaits⟩
  · refine howned.extends hrests hqueue (fun later nameSpace connId howner => ?_)
      haccepted hclients (fun envelope hmem => ?_)
      fun sender key connId connSender excluded rest hnew => ?_
    · refine (hdeparts _ _ _ howner).mono (List.Subset.refl _) ?_
      intro envelope hmem
      rw [hdeferred]
      simp only [List.mem_append] at hmem ⊢
      tauto
    · rw [hdeferred] at hmem
      exact howned.deferred envelope hmem
    · cases htask : effect.task moved with
      | none =>
          rw [htask] at hnew
          cases List.eq_nil_of_suffix_nil hnew
      | some task =>
          rw [htask] at hnew
          have hmem := hnew.subset (List.mem_cons_self ..)
          cases List.mem_singleton.mp hmem
          exact hsubcribe _ _ _ _ _ htask
  · refine howned.extends hrests (by rw [hqueue, List.append_nil])
      (fun later nameSpace connId howner => ?_) haccepted hclients
      (fun envelope hmem => ?_) fun sender key connId connSender excluded rest
        hnew => ?_
    · refine (hdeparts _ _ _ howner).mono (List.Subset.refl _) ?_
      intro envelope hmem
      rw [hdeferred]
      simp only [List.mem_append] at hmem ⊢
      tauto
    · rw [hdeferred] at hmem
      rcases List.mem_append.mp hmem with hold | hnew
      · exact howned.deferred envelope hold
      · obtain ⟨task, htask, rfl⟩ := List.mem_map.mp hnew
        cases effect with
        | dropGuard guard writer =>
            cases Option.mem_toList.mp htask
            exact ⟨guard, moved, rfl⟩
        | stay | leave => cases Option.mem_toList.mp htask
        | post | postLeave => cases hawaits
    · cases List.eq_nil_of_suffix_nil hnew

theorem StreamsOwned.enqueues {task : ManagerTask}
    (howned : StreamsOwned relay log)
    (htask : task = .accept ∨ task = .shutdown)
    (hrests : ManagerRests relay next)
    (hqueue : next.queue = relay.queue ++ [⟨none, task⟩])
    (hdeferred : next.deferred = relay.deferred)
    (hparties : next.parties = relay.parties) : StreamsOwned next log := by
  refine howned.extends hrests hqueue (fun later nameSpace connId howner => ?_)
    ?_ ?_ ?_ fun sender key connId connSender excluded rest hnew => ?_
  · rw [hparties, hdeferred]
    refine howner.mono (List.Subset.refl _) fun envelope hmem => ?_
    simp only [List.mem_append] at hmem ⊢
    tauto
  · rw [hparties, hrests.nextSocket]
    exact howned.accepted
  · rw [hparties]
    exact howned.clients
  · rw [hdeferred]
    exact howned.deferred
  · cases List.mem_singleton.mp (hnew.subset (List.mem_cons_self ..))
    rcases htask with htask | htask <;> cases htask

theorem StreamsOwned.flushes {index : ℕ} {envelope : Envelope}
    (howned : StreamsOwned relay log)
    (hget : relay.deferred[index]? = some envelope)
    (hrests : ManagerRests relay next)
    (hqueue : next.queue = relay.queue ++ [envelope])
    (hdeferred : next.deferred = relay.deferred.eraseIdx index)
    (hparties : next.parties = relay.parties) : StreamsOwned next log := by
  refine howned.extends hrests hqueue (fun later nameSpace connId howner => ?_)
    ?_ ?_ (fun other hmem => ?_)
    fun sender key connId connSender excluded rest hnew => ?_
  · rw [hparties, hdeferred]
    refine howner.mono (List.Subset.refl _) fun other hmem => ?_
    rcases List.mem_append.mp hmem with hlater | hold
    · simp [hlater]
    · rcases mem_of_eraseIdx hget hold with rfl | hkept
      · simp
      · simp [hkept]
  · rw [hparties, hrests.nextSocket]
    exact howned.accepted
  · rw [hparties]
    exact howned.clients
  · rw [hdeferred] at hmem
    exact howned.deferred other (List.mem_of_mem_eraseIdx hmem)
  · obtain ⟨guard, other, htask⟩ :=
      howned.deferred envelope (List.mem_of_getElem? hget)
    cases List.mem_singleton.mp (hnew.subset (List.mem_cons_self ..))
    cases guard <;> cases htask

/-- An entry survives only the deregistration of another identity. -/
theorem lookup_of_handle {now : Instant} {task : ManagerTask}
    {stream : PendingStream}
    (hlookup : (relay.manager.handle settings now
      task).1.pendingStreams.lookup connId = some stream) :
    relay.manager.pendingStreams.lookup connId = some stream ∧
      ∀ serverId, task ≠ .deRegisterClientConn serverId connId := by
  obtain ⟨hpending, -⟩ := relay.manager.handle_charges settings now task
  rw [hpending] at hlookup
  cases task with
  | deRegisterClientConn serverId clientId =>
      simp only [Manager.removePendingStream] at hlookup
      split at hlookup
      · rename_i hnone
        refine ⟨hlookup, ?_⟩
        rintro _ ⟨⟩
        rw [hnone] at hlookup
        cases hlookup
      · rw [Table.lookup_erase] at hlookup
        split at hlookup
        · cases hlookup
        · rename_i hne
          refine ⟨hlookup, ?_⟩
          rintro _ ⟨⟩
          exact hne rfl
  | _ => exact ⟨hlookup, fun _ htask => by cases htask⟩

theorem StreamsOwned.handles {now : Instant} {envelope : Envelope}
    {queue : List Envelope} (howned : StreamsOwned relay log)
    (hqueue : relay.queue = envelope :: queue)
    (hsettled : Settled { relay with queue, clock := now } envelope.sender
      (relay.manager.handle settings now envelope.task).1
      (relay.manager.handle settings now envelope.task).2 next) :
    StreamsOwned next log := by
  obtain ⟨haccepted, horigin, hkept⟩ := hsettled.keeps howned.accepted
  refine ⟨haccepted, fun socket connId handler hparty key hkey => ?_,
    fun connId stream hlookup => ?_, fun sender key connId connSender excluded
      rest hsuffix => ?_, fun other hmem => ?_, fun sender outgoing subscription
      candidate rest hphase hresume => ?_⟩
  · rcases horigin socket connId handler hparty with hold | ⟨rfl, -⟩
    · exact howned.clients _ _ _ hold key hkey
    · cases hkey
  · rw [hsettled.manager] at hlookup
    obtain ⟨hbefore, htask⟩ := lookup_of_handle hlookup
    obtain ⟨socket, hmem, hdeparts⟩ := howned.pending connId stream hbefore
    rw [hsettled.queue, hsettled.deferred]
    refine Owner.of_parties ⟨socket, hmem, hdeparts.imp_right ?_⟩ hkept
    rintro ⟨serverId, htasks⟩
    rw [hqueue, List.cons_append] at htasks
    rcases List.mem_cons.mp htasks with rfl | hrest
    · exact absurd rfl (htask serverId)
    · exact ⟨serverId, hrest⟩
  · rw [hsettled.queue] at hsuffix
    rw [hsettled.deferred]
    refine Owner.of_parties
      (howned.queued sender key connId connSender excluded rest ?_) hkept
    rw [hqueue]
    exact hsuffix.trans (List.suffix_cons _ _)
  · rw [hsettled.deferred] at hmem
    exact howned.deferred other hmem
  · rw [hsettled.phase] at hphase
    obtain ⟨rfl, houtcome⟩ := phase_eq_sending hphase
    obtain ⟨htask, -⟩ := Manager.lt_limit_of_streamReq houtcome hresume
    rw [hsettled.queue, hsettled.deferred]
    refine Owner.of_parties (howned.queued envelope.sender subscription.key
      subscription.connId subscription.connSender
      subscription.excludedServerConns queue ?_) hkept
    exact ⟨[], by rw [hqueue, ← htask, List.nil_append]⟩

theorem StreamsOwned.resumes {sender : Option Socket} {outgoing : Outgoing}
    {sent : Bool} (howned : StreamsOwned relay log)
    (hphase : relay.phase = .sending sender outgoing)
    (hsettled : Settled relay sender
      (relay.manager.resume sent outgoing.resume).1
      (relay.manager.resume sent outgoing.resume).2 next) :
    StreamsOwned next log := by
  obtain ⟨haccepted, horigin, hkept⟩ := hsettled.keeps howned.accepted
  refine ⟨haccepted, fun socket connId handler hparty key hkey => ?_,
    fun connId stream hlookup => ?_, fun sender key connId connSender excluded
      rest hsuffix => ?_, fun other hmem => ?_, fun _ next subscription
      candidate rest hnextPhase hresume => ?_⟩
  · rcases horigin socket connId handler hparty with hold | ⟨rfl, -⟩
    · exact howned.clients _ _ _ hold key hkey
    · cases hkey
  · rw [hsettled.manager] at hlookup
    rw [hsettled.queue, hsettled.deferred]
    refine Owner.of_parties ?_ hkept
    rcases relay.manager.resume_charges sent outgoing.resume with
      ⟨subscription, candidate, rest, rfl, hresume, hmanager⟩ | ⟨hpending, -⟩
    · rw [hmanager, Manager.pendStream, Table.lookup_insert] at hlookup
      split at hlookup
      · rename_i heq
        cases hlookup
        rw [heq]
        exact howned.sending _ _ _ _ _ hphase hresume
      · exact howned.pending connId stream hlookup
    · rw [hpending] at hlookup
      exact howned.pending connId stream hlookup
  · rw [hsettled.queue] at hsuffix
    rw [hsettled.deferred]
    exact Owner.of_parties (howned.queued _ _ _ _ _ _ hsuffix) hkept
  · rw [hsettled.deferred] at hmem
    exact howned.deferred other hmem
  · rw [hsettled.phase] at hnextPhase
    obtain ⟨rfl, houtcome⟩ := phase_eq_sending hnextPhase
    obtain ⟨_, _, hbefore, -⟩ := Manager.streamReq_of_resume houtcome hresume
    rw [hsettled.queue, hsettled.deferred]
    exact Owner.of_parties (howned.sending _ _ _ _ _ hphase hbefore) hkept

/-- Every step keeps the owners. -/
theorem streamsOwned_step (howned : StreamsOwned relay log)
    (hstep : relay.step settings event = some next) :
    StreamsOwned next (log ++ subscribers relay event) := by
  have hlonger : StreamsOwned next log →
      StreamsOwned next (log ++ subscribers relay event) := fun hnext =>
    { hnext with
      clients := fun socket connId handler hparty key hkey =>
        List.mem_append_left _ (hnext.clients socket connId handler hparty key
          hkey)
      pending := fun connId stream hlookup =>
        (hnext.pending connId stream hlookup).mono
          (List.subset_append_left _ _) (List.Subset.refl _)
      queued := fun sender key connId connSender excluded rest hsuffix =>
        (hnext.queued sender key connId connSender excluded rest hsuffix).mono
          (List.subset_append_left _ _) (List.Subset.refl _)
      sending := fun sender outgoing subscription candidate rest hphase
          hresume =>
        (hnext.sending sender outgoing subscription candidate rest hphase
          hresume).mono (List.subset_append_left _ _) (List.Subset.refl _) }
  cases relayMove_of_step hstep with
  | enqueues _ htask hrests hqueue hdeferred hparties =>
      exact hlonger (howned.enqueues htask hrests hqueue hdeferred hparties)
  | flushes hget hrests hqueue hdeferred hparties =>
      exact hlonger (howned.flushes hget hrests hqueue hdeferred hparties)
  | moves hbefore hmoves hrests hparties htasks =>
      exact howned.moves hbefore hmoves hrests hparties htasks
  | handles hphase hqueue hnow hsettled =>
      exact hlonger (howned.handles hqueue hsettled)
  | resumes hphase hsent hsettled =>
      exact hlonger (howned.resumes hphase hsettled)

end Owners

/-! ## Runs -/

namespace RelayState

/-- The connection is gone, and none of its tasks waits for the manager. -/
def HasLeft (relay : RelayState) (socket : Socket) : Prop :=
  relay.parties socket = none ∧
    ∀ envelope ∈ relay.queue ++ relay.deferred, envelope.sender ≠ some socket

/-- Whenever a stream is made pending, an entry that is left of its identity is
one of the same namespace. -/
def EntriesStayInNamespace (relay : RelayState) : Event → Prop
  | .send =>
      match relay.phase with
      | .sending _ ⟨channel, _, .streamReq subscription _ _⟩ =>
          (relay.receiver channel).isSome = true →
            ∀ stream ∈ relay.manager.pendingStreams.lookup subscription.connId,
              keyNamespace stream.key = keyNamespace subscription.key
      | _ => True
  | _ => True

instance (relay : RelayState) (event : Event) :
    Decidable (relay.EntriesStayInNamespace event) := by
  unfold EntriesStayInNamespace
  cases event <;> dsimp only <;> try infer_instance
  split <;> infer_instance

end RelayState

/-- The counters of the namespaces are the numbers of their pending streams and
within the limit, and a namespace all of whose subscribers have left is charged
for nothing. -/
structure StreamAccounting (settings : Settings) (relay : RelayState)
    (log : List (Socket × UInt64)) : Prop where
  counted : ∀ nameSpace, relay.manager.streamCount nameSpace =
    relay.manager.pendingIn nameSpace
  bounded : ∀ nameSpace, relay.manager.streamCount nameSpace ≤
    settings.maxStreamsPerNamespace
  released : ∀ nameSpace,
    (∀ socket, (socket, nameSpace) ∈ log → relay.HasLeft socket) →
      relay.manager.streamCount nameSpace = 0

section Runs

variable {settings : Settings} {relay : RelayState}
  {log : List (Socket × UInt64)}

theorem charged_of_reachable
    (hreachable : ((relaySystem settings).restrict
      EntriesStayInNamespace).Reachable relay) :
    Charged settings relay.manager relay.phase := by
  refine managerInvariant_of_reachable (motive := Charged settings) ?_ ?_ ?_
    hreachable
  · refine ⟨fun _ => rfl, fun _ => Nat.zero_le _, ?_⟩
    rintro sender outgoing subscription candidate rest hphase
    cases hphase
  · rintro relay now envelope - hcharged
    exact charged_handle hcharged now envelope
  · rintro relay sender outgoing sent hphase hsent hsame hcharged
    refine charged_resume hcharged ?_
    rintro subscription candidate rest rfl hresume
    obtain ⟨channel, message, resume⟩ := outgoing
    cases hresume
    simp only [EntriesStayInNamespace, hphase] at hsame
    exact hsame hsent.symm

theorem streamsOwned_init : StreamsOwned .init [] where
  accepted _ _ := rfl
  clients _ _ _ hparty := by cases hparty
  pending _ _ hlookup := by cases hlookup
  queued _ _ _ _ _ _ hsuffix := by
    cases List.eq_nil_of_suffix_nil hsuffix
  deferred _ hmem := by cases hmem
  sending _ _ _ _ _ hphase := by cases hphase

theorem streamsOwned_of_reachable
    (hreachable : (((relaySystem settings).restrict
      EntriesStayInNamespace).logging subscribers).Reachable (relay, log)) :
    StreamsOwned relay log := by
  refine hreachable.invariant
    (motive := fun logged => StreamsOwned logged.1 logged.2) ?_ ?_
  · rintro ⟨_, _⟩ ⟨rfl, rfl⟩
    exact streamsOwned_init
  · rintro ⟨before, log⟩ event ⟨after, longer⟩ howned ⟨⟨-, hstep⟩, hlonger⟩
    cases hlonger
    exact streamsOwned_step howned hstep

/-- In every run in which no entry is overwritten from another namespace, the
streams of all namespaces are accounted for. -/
theorem streamAccounting_of_reachable
    (hreachable : (((relaySystem settings).restrict
      EntriesStayInNamespace).logging subscribers).Reachable (relay, log)) :
    StreamAccounting settings relay log := by
  have hcharged := charged_of_reachable hreachable.of_logging
  have howned := streamsOwned_of_reachable hreachable
  refine ⟨hcharged.counted, fun nameSpace => ?_, fun nameSpace hleft => ?_⟩
  · rw [hcharged.counted]
    exact hcharged.bounded nameSpace
  · by_contra hne
    rw [hcharged.counted] at hne
    obtain ⟨connId, stream, hlookup, hnameSpace⟩ :=
      Table.exists_of_count_ne_zero hne
    obtain ⟨socket, hmem, hdeparts⟩ := howned.pending connId stream hlookup
    rw [beq_iff_eq.mp hnameSpace] at hmem
    obtain ⟨hgone, hnoTask⟩ := hleft socket hmem
    rcases hdeparts with ⟨handler, serverId, hparty, -⟩ | ⟨serverId, htask⟩
    · rw [hgone] at hparty
      cases hparty
    · exact hnoTask _ htask rfl

/-! ## An identity used in two namespaces -/

/-- Providers of namespaces 0 and 5, and a subscriber in namespace 0 that gives
up while it is being offered the provider. -/
def abandonedSubscription : List Event :=
  connect 0 (adminRequest (.register ['a'] false false none)) ++ [.send] ++
    connect 1 (guestRequest (.register ['b'] false false none)) ++ [.send] ++
    connect 2 (adminRequest (.subcribe ['a'])) ++
    [.connection 2 .timeout, .send, .send]

/-- Its identity, free again, goes to a subscriber in namespace 5; then both
leave. -/
def leakingHistory : List Event :=
  abandonedSubscription ++
    connect 3 (guestRequest (.subcribe ['b'])) ++
    [.send, .send, .connection 2 .post, .receive 0, .connection 3 .cancel,
      .receive 0]

/-- The abandoned stream stays charged to namespace 0. -/
theorem leakingHistory_leaks :
    ∃ relay log,
      ((relaySystem Settings.default).logging subscribers).Reachable
        (relay, log) ∧
      ¬StreamAccounting Settings.default relay log := by
  have hrun : (leakingHistory.foldlM (RelayState.step Settings.default)
      RelayState.init).map (fun relay =>
        (relay.manager.streamCount 0, relay.manager.pendingIn 0)) =
      some (1, 0) := by
    decide +kernel
  obtain ⟨relay, hfold, hcounts⟩ := Option.map_eq_some_iff.mp hrun
  have hreachable : (relaySystem Settings.default).Reachable relay :=
    Transition.System.reachable_of_foldlM (fun _ _ _ hstep => hstep) rfl hfold
  obtain ⟨log, hlogged⟩ : ∃ log, ((relaySystem Settings.default).logging
    subscribers).Reachable (relay, log) := hreachable.logged
  refine ⟨relay, log, hlogged, fun haccounting => ?_⟩
  obtain ⟨hcount, hpending⟩ := Prod.mk.inj hcounts
  have hcounted := haccounting.counted 0
  rw [hcount, hpending] at hcounted
  cases hcounted

def oneSubscriber : List Event :=
  connect 0 (adminRequest (.register ['a'] false false none)) ++ [.send] ++
    connect 1 (adminRequest (.subcribe ['a'])) ++ [.send, .send]

/-- A single subscriber is charged for its stream. -/
theorem streamAccounting_one_subscriber :
    ∃ relay log, StreamAccounting Settings.default relay log ∧
      relay.manager.streamCount 0 = 1 := by
  have hrun : (oneSubscriber.foldlM (Transition.System.checked
      EntriesStayInNamespace (RelayState.step Settings.default))
        RelayState.init).map
      (fun relay => relay.manager.streamCount 0) = some 1 := by
    decide +kernel
  obtain ⟨relay, hfold, hcount⟩ := Option.map_eq_some_iff.mp hrun
  have hreachable : ((relaySystem Settings.default).restrict
      EntriesStayInNamespace).Reachable relay :=
    Transition.System.reachable_of_foldlM Transition.System.checked_sound rfl
      hfold
  obtain ⟨log, hlogged⟩ : ∃ log, (((relaySystem Settings.default).restrict
    EntriesStayInNamespace).logging subscribers).Reachable (relay, log) :=
    hreachable.logged
  exact ⟨relay, log, streamAccounting_of_reachable hlogged, hcount⟩

end Runs

end PbMapper.Relay

import PbMapper.Relay.Charges
import PbMapper.Relay.Registrations

/-!
# Namespaces of the relay

Every routing key in the relay was scoped for a credential that may use its
namespace.  Splitting such a key gives back that namespace and the service name,
so what the manager counts, lists and limits per namespace is what was registered
there.
-/

namespace PbMapper.Relay

open Auth RelayState

/-! ## Admission -/

section Admission

variable {context : AuthContext} {requested : Option UInt64}
  {force isRegister : Bool} {nameSpace : UInt64}

end Admission

/-- A service that `handle_conn` let its credential reach. -/
def ScopedService.Admitted (isRegister : Bool) (service : ScopedService) : Prop :=
  ∃ requested force, resolveNamespace service.context requested force isRegister =
    .ok service.nameSpace

/-- The routing key of such a service. -/
def Admits (isRegister : Bool) (key : ImutableKey) : Prop :=
  ∃ service : ScopedService, service.Admitted isRegister ∧ service.key = key

theorem admitted_of_scopeServiceOrReject {context : AuthContext}
    {requested : Option UInt64} {force isRegister : Bool} {nameSpace : UInt64}
    {serviceName : List Char} {service : ScopedService}
    (hresolve : resolveNamespace context requested force isRegister =
      .ok nameSpace)
    (hscope : scopeServiceOrReject context nameSpace serviceName = .ok service) :
    service.Admitted isRegister := by
  unfold scopeServiceOrReject at hscope
  split at hscope
  · rw [← Except.ok.inj hscope]
    exact ⟨requested, force, hresolve⟩
  · cases hscope

/-! ## Attribution -/

/-- A subscriber's key, and a provider's, belong to a credential. -/
def Handler.Admitted (handler : Handler) : Prop :=
  (∀ key ∈ handler.clientKey, Admits false key) ∧
    ∀ key ∈ handler.providerKey, Admits true key

def ManagerTask.Admitted : ManagerTask → Prop
  | .register key _ _ _ _ _ => Admits true key
  | .subcribe key _ _ _ => Admits false key
  | _ => True

/-- The subscription that a task waits to go on with. -/
def Resume.Admitted : Resume → Prop
  | .streamReq subscription _ _ => Admits false subscription.key
  | _ => True

def Phase.Admitted : Phase → Prop
  | .sending _ outgoing => outgoing.resume.Admitted
  | _ => True

structure Manager.Attributed (manager : Manager) : Prop where
  registered : ∀ key, manager.serverConnMap.lookup key ≠ none → Admits true key
  pending : ∀ clientId stream, manager.pendingStreams.lookup clientId = some stream →
    Admits false stream.key

structure RelayState.Attributed (relay : RelayState) : Prop where
  manager : relay.manager.Attributed
  phase : relay.phase.Admitted
  tasks : ∀ envelope ∈ relay.queue ++ relay.deferred, envelope.task.Admitted
  handlers : ∀ socket connId handler,
    relay.parties socket = some (connId, handler) → handler.Admitted

/-! ### Handlers -/

theorem Handler.admitted_of_dispatch {init : InitRequest} {handler : Handler}
    (hdispatch : dispatch init = .ok handler) : handler.Admitted := by
  unfold dispatch at hdispatch
  obtain ⟨nameSpace, hresolve, hrequest⟩ := Fallible.bind_eq_ok.mp hdispatch
  cases hinit : init.request with
  | register key needCodec isDatagram protocolVersion =>
      rw [hinit] at hresolve hrequest
      obtain ⟨service, hscope, hpure⟩ := Fallible.bind_eq_ok.mp hrequest
      cases hpure
      have hadmitted := admitted_of_scopeServiceOrReject hresolve hscope
      refine ⟨nofun, ?_⟩
      rintro key hkey
      exact ⟨service, hadmitted, Option.some.inj hkey⟩
  | subcribe key =>
      rw [hinit] at hresolve hrequest
      obtain ⟨service, hscope, hpure⟩ := Fallible.bind_eq_ok.mp hrequest
      cases hpure
      have hadmitted := admitted_of_scopeServiceOrReject hresolve hscope
      refine ⟨?_, nofun⟩
      rintro key hkey
      exact ⟨service, hadmitted, Option.some.inj hkey⟩
  | stream key dstId serverGeneration =>
      rw [hinit] at hrequest
      obtain ⟨service, -, hpure⟩ := Fallible.bind_eq_ok.mp hrequest
      cases hpure
      exact ⟨nofun, nofun⟩
  | status status =>
      rw [hinit] at hrequest
      cases hrequest
      exact ⟨nofun, nofun⟩
  | admin =>
      rw [hinit] at hrequest
      simp only at hrequest
      split at hrequest
      · cases hrequest
      · split at hrequest
        · cases hrequest
        · cases hrequest
          exact ⟨nofun, nofun⟩

/-- A started handler gains no key. -/
theorem Handler.Admitted.follows {before after : Handler}
    (hadmitted : before.Admitted) (hfollows : before.Follows after) :
    after.Admitted := by
  refine ⟨fun key hkey => hadmitted.1 key (hfollows.clientKey key hkey), ?_⟩
  intro key hkey
  have hrunning : after.isRunning = true := by
    cases after <;> first | rfl | cases hkey
  exact hadmitted.2 key (hfollows.providerKey hrunning ▸ hkey)

theorem Handler.Admitted.moves {socket : Socket} {connId : RemoteConnId}
    {before after : Handler} {effect : Effect} {event : Event}
    (hadmitted : before.Admitted)
    (hmoves : HandlerMove socket connId before effect event)
    (hrest : effect.rest = some after) : after.Admitted := by
  cases hmoves with
  | receive hreceive =>
      exact hadmitted.follows (Handler.receive_follows hreceive hrest)
  | step hstep =>
      by_cases hinitial : before = .initial
      · subst hinitial
        -- The first frame is dispatched, or ends the handler.
        rename_i event
        cases event <;> cases hstep
        · cases hrest
        · rename_i init
          unfold start at hrest
          split at hrest <;> cases hrest
          rename_i hdispatch
          exact Handler.admitted_of_dispatch hdispatch
      · exact hadmitted.follows (Handler.step_follows hinitial hstep hrest)

/-- A handler sends no key but its own. -/
theorem Handler.Admitted.task {socket : Socket} {connId : RemoteConnId}
    {before : Handler} {effect : Effect} {event : Event} {task : ManagerTask}
    (hadmitted : before.Admitted)
    (hmoves : HandlerMove socket connId before effect event)
    (htask : effect.task connId = some task) : task.Admitted := by
  cases hmoves with
  | receive hreceive =>
      rw [Handler.receive_task hreceive] at htask
      cases htask
  | step hstep =>
      have hsends := Handler.step_sends hstep htask
      generalize effect.rest = rest at hsends
      cases hsends with
      | register registration => exact hadmitted.2 _ rfl
      | subcribe service => exact hadmitted.1 _ rfl
      | report registration report => cases report <;> trivial
      | deregister guard => cases guard <;> trivial
      | retire => trivial
      | stream => trivial
      | status => trivial

/-! ### The manager -/

theorem Shrinks.lookup_ne_none {before after : ServerConnMap} {key : ImutableKey}
    (hshrinks : Shrinks before after) (hafter : after.lookup key ≠ none) :
    before.lookup key ≠ none := by
  have hcount := hshrinks.keys (· == key)
  have hpos : 0 < after.keys.countP (· == key) := by
    rw [List.countP_pos_iff]
    refine ⟨key, ?_, beq_self_eq_true key⟩
    rw [← AList.mem_keys, ← AList.lookup_isSome]
    exact Option.isSome_iff_ne_none.mpr hafter
  obtain ⟨other, hmem, heq⟩ := List.countP_pos_iff.mp (hpos.trans_le hcount)
  rw [beq_iff_eq] at heq
  rw [heq, ← AList.mem_keys, ← AList.lookup_isSome] at hmem
  exact Option.isSome_iff_ne_none.mp hmem

namespace Manager

variable {settings : Settings} {manager : Manager}

theorem Attributed.handle (hattributed : manager.Attributed) (now : Instant)
    {task : ManagerTask} (htask : task.Admitted) :
    (manager.handle settings now task).1.Attributed where
  registered key hkey := by
    rcases manager.handle_registrations task with
      ⟨hunregistering, -⟩ | ⟨registered, _, _, _, _, _, info, rfl, -, -, hmap, -⟩
    · exact hattributed.registered key
        (hunregistering.shrinks.lookup_ne_none hkey)
    · rw [hmap, Table.lookup_insert] at hkey
      split at hkey
      · rename_i heq
        rw [heq]
        exact htask
      · exact hattributed.registered key hkey
  pending clientId stream hstream := by
    obtain ⟨hpending, -⟩ := manager.handle_charges settings now task
    rw [hpending] at hstream
    cases task with
    | deRegisterClientConn serverId leaving =>
        simp only [removePendingStream] at hstream
        split at hstream
        · exact hattributed.pending clientId stream hstream
        · rw [Table.lookup_erase] at hstream
          split at hstream
          · cases hstream
          · exact hattributed.pending clientId stream hstream
    | _ => exact hattributed.pending clientId stream hstream

/-- A task waits only to go on with its own subscription. -/
theorem admitted_phase_handle (now : Instant) {task : ManagerTask}
    (htask : task.Admitted) (sender : Option Socket) :
    ((manager.handle settings now task).2.phase sender).Admitted := by
  cases houtcome : (manager.handle settings now task).2 with
  | send outgoing =>
      cases hnext : outgoing.resume with
      | streamReq subscription candidate rest =>
          obtain rfl := streamReq_of_handle houtcome hnext
          have hkey : Admits false subscription.key := htask
          simpa only [Outcome.phase, Phase.Admitted, hnext, Resume.Admitted]
            using hkey
      | done => simp only [Outcome.phase, Phase.Admitted, hnext, Resume.Admitted]
      | subcribeResp connId =>
          simp only [Outcome.phase, Phase.Admitted, hnext, Resume.Admitted]
  | _ => trivial

theorem Attributed.resume (hattributed : manager.Attributed) (sent : Bool)
    {resume : Resume} (hresume : resume.Admitted) :
    (manager.resume sent resume).1.Attributed where
  registered key hkey := hattributed.registered key
    ((manager.resume_registrations sent resume).shrinks.lookup_ne_none hkey)
  pending clientId stream hstream := by
    rcases manager.resume_charges sent resume with
      ⟨subscription, candidate, rest, -, rfl, hpend⟩ | ⟨hpending, -⟩
    · rw [hpend] at hstream
      simp only [pendStream, Table.lookup_insert] at hstream
      split at hstream
      · cases hstream
        exact hresume
      · exact hattributed.pending clientId stream hstream
    · rw [hpending] at hstream
      exact hattributed.pending clientId stream hstream

theorem admitted_phase_resume (sent : Bool) {resume : Resume}
    (hresume : resume.Admitted) (sender : Option Socket) :
    ((manager.resume sent resume).2.phase sender).Admitted := by
  cases houtcome : (manager.resume sent resume).2 with
  | send outgoing =>
      cases hnext : outgoing.resume with
      | streamReq subscription candidate rest =>
          obtain ⟨previous, tried, rfl, -⟩ := streamReq_of_resume houtcome hnext
          have hkey : Admits false subscription.key := hresume
          simpa only [Outcome.phase, Phase.Admitted, hnext, Resume.Admitted]
            using hkey
      | done => simp only [Outcome.phase, Phase.Admitted, hnext, Resume.Admitted]
      | subcribeResp connId =>
          simp only [Outcome.phase, Phase.Admitted, hnext, Resume.Admitted]
  | _ => trivial

end Manager

/-! ### Runs -/

section Runs

variable {settings : Settings} {relay next : RelayState}

/-- Settling keeps the handlers; a new connection has no key yet. -/
theorem admitted_of_settled {sender : Option Socket} {manager : Manager}
    {outcome : Outcome} (hsettled : Settled relay sender manager outcome next)
    (hhandlers : ∀ socket connId handler,
      relay.parties socket = some (connId, handler) → handler.Admitted)
    (socket : Socket) (connId : RemoteConnId) (handler : Handler)
    (hparty : next.parties socket = some (connId, handler)) :
    handler.Admitted := by
  have hparties := hsettled.parties
  cases hspawned : outcome.spawned with
  | none =>
    rw [hspawned] at hparties
    rw [hparties] at hparty
    exact hhandlers socket connId handler hparty
  | some spawned =>
    rw [hspawned] at hparties
    dsimp only at hparties
    rw [hparties, Function.update_apply] at hparty
    split at hparty
    · cases hparty
      exact ⟨nofun, nofun⟩
    · exact hhandlers socket connId handler hparty

/-- What a handler's step queues or defers is its own task. -/
theorem mem_tasks_of_queues {socket : Socket} {connId : RemoteConnId}
    {effect : Effect} {envelope : Envelope}
    (hqueues : (next.queue =
          relay.queue ++ (effect.task connId).toList.map (⟨some socket, ·⟩) ∧
        next.deferred = relay.deferred) ∨
      (next.queue = relay.queue ∧ next.deferred =
        relay.deferred ++ (effect.task connId).toList.map (⟨some socket, ·⟩) ∧
        effect.awaitsRoom = false))
    (hmem : envelope ∈ next.queue ++ next.deferred) :
    envelope ∈ relay.queue ++ relay.deferred ∨
      ∃ task, effect.task connId = some task ∧ envelope.task = task := by
  have hnew : envelope ∈
      (effect.task connId).toList.map (Envelope.mk (some socket)) →
      ∃ task, effect.task connId = some task ∧ envelope.task = task := by
    intro hmem
    obtain ⟨task, htask, rfl⟩ := List.mem_map.mp hmem
    exact ⟨task, Option.mem_toList.mp htask, rfl⟩
  rcases hqueues with ⟨hqueue, hdeferred⟩ | ⟨hqueue, hdeferred, -⟩
  · rw [hqueue, hdeferred, List.mem_append, List.mem_append] at hmem
    rcases hmem with (hold | hadded) | hold
    · exact .inl (List.mem_append_left _ hold)
    · exact .inr (hnew hadded)
    · exact .inl (List.mem_append_right _ hold)
  · rw [hqueue, hdeferred, List.mem_append, List.mem_append] at hmem
    rcases hmem with hold | hold | hadded
    · exact .inl (List.mem_append_left _ hold)
    · exact .inl (List.mem_append_right _ hold)
    · exact .inr (hnew hadded)

theorem RelayState.Attributed.step {event : Event}
    (hattributed : relay.Attributed)
    (hstep : relay.step settings event = some next) : next.Attributed := by
  have htasks := hattributed.tasks
  cases relayMove_of_step hstep with
  | enqueues hevent htask hrests hqueue hdeferred hparties =>
      refine ⟨?_, ?_, ?_, ?_⟩
      · rw [hrests.manager]
        exact hattributed.manager
      · rw [hrests.phase]
        exact hattributed.phase
      · intro envelope hmem
        rw [hqueue, hdeferred, List.mem_append, List.mem_append,
          List.mem_singleton] at hmem
        rcases hmem with (hmem | rfl) | hmem
        · exact htasks envelope (List.mem_append_left _ hmem)
        · rcases htask with rfl | rfl <;> trivial
        · exact htasks envelope (List.mem_append_right _ hmem)
      · rw [hparties]
        exact hattributed.handlers
  | flushes hget hrests hqueue hdeferred hparties =>
      refine ⟨?_, ?_, ?_, ?_⟩
      · rw [hrests.manager]
        exact hattributed.manager
      · rw [hrests.phase]
        exact hattributed.phase
      · intro envelope hmem
        rw [hqueue, hdeferred, List.mem_append, List.mem_append,
          List.mem_singleton] at hmem
        rcases hmem with (hmem | rfl) | hmem
        · exact htasks envelope (List.mem_append_left _ hmem)
        · exact htasks _ (List.mem_append_right _ (List.mem_of_getElem? hget))
        · exact htasks envelope
            (List.mem_append_right _ (List.mem_of_mem_eraseIdx hmem))
      · rw [hparties]
        exact hattributed.handlers
  | moves hbefore hmoves hrests hparties hqueues =>
      have hadmitted := hattributed.handlers _ _ _ hbefore
      refine ⟨?_, ?_, ?_, ?_⟩
      · rw [hrests.manager]
        exact hattributed.manager
      · rw [hrests.phase]
        exact hattributed.phase
      · intro envelope hmem
        rcases mem_tasks_of_queues hqueues hmem with hold | ⟨task, htask, heq⟩
        · exact htasks envelope hold
        · rw [heq]
          exact hadmitted.task hmoves htask
      · intro other connId handler hparty
        rw [hparties, Function.update_apply] at hparty
        split at hparty
        · obtain ⟨after, hrest, heq⟩ := Option.map_eq_some_iff.mp hparty
          cases heq
          exact hadmitted.moves hmoves hrest
        · exact hattributed.handlers other connId handler hparty
  | handles hphase hqueue hnow hsettled =>
      have htask := htasks _ (List.mem_append_left _ (hqueue ▸ List.mem_cons_self))
      refine ⟨?_, ?_, ?_, ?_⟩
      · rw [hsettled.manager]
        exact hattributed.manager.handle _ htask
      · rw [hsettled.phase]
        exact Manager.admitted_phase_handle _ htask _
      · intro envelope hmem
        rw [hsettled.queue, hsettled.deferred] at hmem
        refine htasks envelope ?_
        rw [hqueue]
        exact List.mem_cons_of_mem _ hmem
      · exact admitted_of_settled hsettled hattributed.handlers
  | resumes hphase hsent hsettled =>
      have hresume : Phase.Admitted _ := hattributed.phase
      rw [hphase] at hresume
      refine ⟨?_, ?_, ?_, ?_⟩
      · rw [hsettled.manager]
        exact hattributed.manager.resume _ hresume
      · rw [hsettled.phase]
        exact Manager.admitted_phase_resume _ hresume _
      · rw [hsettled.queue, hsettled.deferred]
        exact htasks
      · exact admitted_of_settled hsettled hattributed.handlers

end Runs

/-! ## Administrator lists -/

namespace Manager

variable (manager : Manager)

end Manager

/-! ## What is counted and listed -/

theorem ScopedService.key_eq (service : ScopedService) :
    service.key = scopeKey service.nameSpace service.serviceName :=
  (scopedServiceKey_eq_ok service.isScoped).2

@[simp]
theorem ScopedService.keyNamespace_key (service : ScopedService) :
    keyNamespace service.key = service.nameSpace := by
  rw [keyNamespace, service.split_key]

namespace Manager

/-- A service that has a provider. -/
def Registered (manager : Manager) (service : ScopedService) : Prop :=
  service.Admitted true ∧ manager.serverConnMap.lookup service.key ≠ none

variable {manager : Manager}

theorem mem_keys_iff {key : ImutableKey} :
    key ∈ manager.serverConnMap.keys ↔ manager.serverConnMap.lookup key ≠ none := by
  rw [← AList.mem_keys, ← AList.lookup_isSome]
  exact Option.isSome_iff_ne_none

/-- Different keys of one namespace have different names. -/
theorem Attributed.nodup_names (hattributed : manager.Attributed)
    (nameSpace : UInt64) :
    ((manager.serverConnMap.keys.filter (keyNamespace · == nameSpace)).map
      fun key => (splitScopedServiceKey key).2).Nodup := by
  refine List.Nodup.map_on ?_ (manager.serverConnMap.keys_nodup.filter _)
  intro key hkey other hother hname
  obtain ⟨hmem, hspace⟩ := List.mem_filter.mp hkey
  obtain ⟨hmem', hspace'⟩ := List.mem_filter.mp hother
  obtain ⟨service, -, rfl⟩ := hattributed.registered key (mem_keys_iff.mp hmem)
  obtain ⟨service', -, rfl⟩ :=
    hattributed.registered other (mem_keys_iff.mp hmem')
  rw [beq_iff_eq, ScopedService.keyNamespace_key] at hspace hspace'
  rw [service.split_key, service'.split_key] at hname
  dsimp only at hname
  rw [service.key_eq, service'.key_eq, hname, hspace, hspace']

theorem Attributed.keys (hattributed : manager.Attributed) (now : Instant)
    (nameSpace : UInt64) :
    ∃ names, manager.statusResp now nameSpace .keys = .keys names ∧
      names.Nodup ∧
      names.length = manager.serverConnMap.keys.countP
        (keyNamespace · == nameSpace) ∧
      ∀ name, name ∈ names ↔ ∃ service, manager.Registered service ∧
        service.nameSpace = nameSpace ∧ service.serviceName = name := by
  refine ⟨_, rfl, hattributed.nodup_names nameSpace, ?_, ?_⟩
  · rw [List.length_map, List.countP_eq_length_filter]
  · intro name
    simp only [List.mem_map, List.mem_filter, beq_iff_eq]
    constructor
    · rintro ⟨key, ⟨hkey, hspace⟩, rfl⟩
      have hne := mem_keys_iff.mp hkey
      obtain ⟨service, hadmitted, rfl⟩ := hattributed.registered key hne
      refine ⟨service, ⟨hadmitted, hne⟩, ?_, ?_⟩
      · rw [← hspace, ScopedService.keyNamespace_key]
      · rw [service.split_key]
    · rintro ⟨service, hregistered, rfl, rfl⟩
      refine ⟨service.key, ⟨mem_keys_iff.mpr hregistered.2, ?_⟩, ?_⟩
      · exact service.keyNamespace_key
      · rw [service.split_key]

end Manager

end PbMapper.Relay

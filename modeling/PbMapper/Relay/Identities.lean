import PbMapper.Relay.Iterations
import Mathlib.Data.List.Perm.Subperm

/-!
# Conservation of connection identities

An identity that was handed out is held by a connection, until the manager has
handled the deregistration its guard sends, or is in the free list.  It gets
into the free list only if its channel is signed up at that moment, and a handed
out identity leaves the system otherwise; where that does not happen, no more
identities are minted than connections are alive at once.
-/

namespace PbMapper.Relay

open RelayState

/-! ## Holders -/

/-- The identity whose guard sent the task. -/
def ManagerTask.leaver : ManagerTask → Option RemoteConnId
  | .deRegisterServerConn _ connId => some connId
  | .deRegisterClientConn _ clientId => some clientId
  | _ => none

namespace RelayState

variable (relay : RelayState)

/-- The identities of the connections that run, or whose deregistration has not
been handled. -/
def heldIds : List RemoteConnId :=
  (relay.connections.entries.filter (·.2.handler.isRunning)).map (·.2.connId) ++
    (relay.queue ++ relay.deferred).filterMap (·.task.leaver)

/-- The free identities. -/
def idleIds : List RemoteConnId := relay.manager.taskManager.idleConnIdList

variable {relay} {connId : RemoteConnId}

theorem mem_heldIds :
    connId ∈ relay.heldIds ↔
      (∃ socket handler, relay.parties socket = some (connId, handler) ∧
        handler.isRunning = true) ∨
      ∃ envelope ∈ relay.queue ++ relay.deferred,
        envelope.task.leaver = some connId := by
  rw [heldIds, List.mem_append, List.mem_filterMap]
  refine or_congr_left ?_
  rw [List.mem_map]
  constructor
  · rintro ⟨⟨socket, connection⟩, hentry, rfl⟩
    obtain ⟨hmem, hrunning⟩ := List.mem_filter.mp hentry
    refine ⟨socket, connection.handler, ?_, hrunning⟩
    rw [parties, (Table.mem_entries_iff _).mp hmem, Option.map_some]
  · rintro ⟨socket, handler, hparty, hrunning⟩
    obtain ⟨connection, hlookup, heq⟩ := Option.map_eq_some_iff.mp hparty
    obtain ⟨rfl, rfl⟩ := Prod.mk.inj heq
    exact ⟨⟨socket, connection⟩, List.mem_filter.mpr
      ⟨(Table.mem_entries_iff _).mpr hlookup, hrunning⟩, rfl⟩

end RelayState

/-! ## What an operation frees -/

/-- No identity leaves the free list, and an identity that loses its channel
joins it. -/
structure Frees (before after : Manager) : Prop where
  provider :
    after.taskManager.connIdProvider = before.taskManager.connIdProvider
  idle : before.taskManager.idleConnIdList ⊆ after.taskManager.idleConnIdList
  lost : ∀ connId, before.taskManager.getConnSenderChan connId ≠ none →
    after.taskManager.getConnSenderChan connId ≠ none ∨
      connId ∈ after.taskManager.idleConnIdList

namespace Frees

variable {first middle last before after : Manager} {connId : RemoteConnId}

theorem of_eq (htaskManager : after.taskManager = before.taskManager) :
    Frees before after where
  provider := by rw [htaskManager]
  idle := by rw [htaskManager]; exact List.Subset.refl _
  lost connId hchannel := .inl (by rwa [htaskManager])

theorem trans (hfirst : Frees first middle) (hlast : Frees middle last) :
    Frees first last where
  provider := hlast.provider.trans hfirst.provider
  idle := List.Subset.trans hfirst.idle hlast.idle
  lost connId hchannel := by
    rcases hfirst.lost connId hchannel with hmiddle | hidle
    · exact hlast.lost connId hmiddle
    · exact .inr (hlast.idle hidle)

theorem deregisterConn : Frees before (before.deregisterConn connId) where
  provider := TaskManager.deregisterConn_provider
  idle _ hidle := TaskManager.mem_idle_deregisterConn.mpr (.inl hidle)
  lost other hchannel := by
    by_cases heq : other = connId
    · subst heq
      exact .inr (TaskManager.mem_idle_deregisterConn.mpr (.inr ⟨rfl, hchannel⟩))
    · refine .inl ?_
      rwa [Manager.deregisterConn, TaskManager.getConnSenderChan,
        TaskManager.lookup_deregisterConn, if_neg heq]

/-- The channel of a deregistered identity is gone. -/
theorem mem_idle_of_deregistered (hfrees : Frees before after)
    (hgone : after.taskManager.getConnSenderChan connId = none)
    (hkept : before.taskManager.getConnSenderChan connId ≠ none ∨
      connId ∈ before.taskManager.idleConnIdList) :
    connId ∈ after.taskManager.idleConnIdList := by
  rcases hkept with hchannel | hidle
  · exact (hfrees.lost connId hchannel).resolve_left (not_not_intro hgone)
  · exact hfrees.idle hidle

theorem dropServerConn {key : ImutableKey} :
    Frees before (before.dropServerConn key connId) :=
  ⟨deregisterConn.provider, deregisterConn.idle, deregisterConn.lost⟩

theorem releaseNamespaceRateLimitIfIdle {nameSpace : UInt64} :
    Frees before (before.releaseNamespaceRateLimitIfIdle nameSpace) := by
  unfold Manager.releaseNamespaceRateLimitIfIdle
  dsimp only
  split <;> exact of_eq rfl

theorem deRegisterServerConn {key : ImutableKey} :
    Frees before (before.deRegisterServerConn key connId) :=
  dropServerConn.trans releaseNamespaceRateLimitIfIdle

theorem deRegisterClientConn {serverId : Option RemoteConnId} :
    Frees before (before.deRegisterClientConn serverId connId) := by
  have hremoved : Frees before (before.removePendingStream connId) := by
    unfold Manager.removePendingStream
    split <;> exact of_eq rfl
  have hserver : Frees before (serverId.elim
      (before.removePendingStream connId)
      (before.removePendingStream connId).deregisterConn) := by
    cases serverId with
    | none => exact hremoved
    | some serverId => exact hremoved.trans deregisterConn
  rw [Manager.deRegisterClientConn_eq]
  cases before.pendingStreams.lookup connId
  · exact hserver.trans deregisterConn
  · exact (hserver.trans deregisterConn).trans releaseNamespaceRateLimitIfIdle

theorem signUp {channel : Socket}
    (htaskManager : after.taskManager =
      before.taskManager.signUpConnSender connId channel) :
    Frees before after where
  provider := by
    rw [htaskManager]
    exact TaskManager.signUpConnSender_provider
  idle := by
    rw [htaskManager, TaskManager.signUpConnSender_idle]
    exact List.Subset.refl _
  lost other hchannel := by
    refine .inl ?_
    rw [htaskManager]
    by_cases heq : other = connId
    · rw [heq, TaskManager.getConnSenderChan, TaskManager.signUpConnSender]
      split
      · rw [AList.lookup_insert]
        exact Option.some_ne_none _
      · exact heq ▸ hchannel
    · rwa [TaskManager.getConnSenderChan,
        TaskManager.lookup_signUpConnSender_ne heq]

end Frees

section Operations

variable {settings : Settings} {now : Instant} {manager : Manager}

/-- Every task but an accept only adds to the free list. -/
theorem frees_handle {task : ManagerTask} (hne : task ≠ .accept) :
    Frees manager (manager.handle settings now task).1 := by
  cases task with
  | accept => exact absurd rfl hne
  | shutdown | status | serverConnActivity => exact .of_eq rfl
  | deRegisterServerConn | retireServerConn => exact .deRegisterServerConn
  | deRegisterClientConn => exact .deRegisterClientConn
  | register key connId needCodec isDatagram protocolVersion connSender =>
      simp only [Manager.handle, Manager.register]
      split
      · exact .of_eq rfl
      · exact .signUp rfl
  | stream key stream serverId clientId serverGeneration =>
      simp only [Manager.handle, Manager.stream]
      repeat' split
      all_goals exact .of_eq rfl
  | streamAck serverId clientId serverGeneration =>
      simp only [Manager.handle, Manager.streamAck]
      repeat' split
      all_goals exact .of_eq rfl
  | subcribe key connId connSender excluded =>
      obtain ⟨limits, ⟨message, -, hsubcribe⟩ | ⟨selected, hselected,
        hsubcribe⟩⟩ := manager.subcribe_cases settings now
          ⟨key, connId, connSender, excluded⟩
      · simp only [Manager.handle, hsubcribe]
        exact .of_eq rfl
      · simp only [Manager.handle, hsubcribe]
        subst hselected
        have hpruned := (Manager.selectServer_cases
          { manager with namespaceRateLimits := limits }
          ⟨key, connId, connSender, excluded⟩
          (Manager.candidates ⟨key, connId, connSender, excluded⟩
            (registrations manager.serverConnMap key))).1
        exact .of_eq hpruned.taskManager

theorem frees_resume (sent : Bool) (resume : Resume) :
    Frees manager (manager.resume sent resume).1 := by
  cases resume with
  | done => exact .of_eq rfl
  | subcribeResp connId =>
      cases sent with
      | true => exact .of_eq rfl
      | false => exact .deregisterConn
  | streamReq subscription candidate rest =>
      cases sent with
      | true =>
          simp only [Manager.resume, if_true]
          by_cases hnone : (manager.taskManager.getConnSenderChan
              subscription.connId).isNone = true
          · exact .signUp (if_pos hnone)
          · exact .of_eq (if_neg hnone)
      | false =>
          have hpruned := (Manager.selectServer_cases
            (manager.dropServerConn subscription.key candidate.connId)
            subscription rest).1
          exact Frees.dropServerConn.trans (.of_eq hpruned.taskManager)

/-- The channel of an identity whose guard was dropped is gone. -/
theorem getConnSenderChan_leaver {task : ManagerTask} {connId : RemoteConnId}
    (hleaver : task.leaver = some connId) :
    (manager.handle settings now task).1.taskManager.getConnSenderChan connId =
      none := by
  have hrelease : ∀ (before : Manager) (nameSpace : UInt64),
      (before.releaseNamespaceRateLimitIfIdle nameSpace).taskManager =
        before.taskManager := by
    intro before nameSpace
    unfold Manager.releaseNamespaceRateLimitIfIdle
    dsimp only
    split <;> rfl
  have hgone : ∀ before : Manager,
      (before.deregisterConn connId).taskManager.getConnSenderChan connId =
        none := by
    intro before
    rw [Manager.deregisterConn, TaskManager.getConnSenderChan,
      TaskManager.lookup_deregisterConn, if_pos rfl]
  cases task with
  | deRegisterServerConn key other =>
      cases hleaver
      rw [Manager.handle, Manager.deRegisterServerConn, hrelease]
      exact hgone manager
  | deRegisterClientConn serverId other =>
      cases hleaver
      simp only [Manager.handle, Manager.deRegisterClientConn]
      split
      · exact hgone _
      · rw [hrelease]
        exact hgone _
  | _ => cases hleaver

/-- The loop over the free list stops at the first usable identity. -/
theorem popIdle_eq (taskManager : TaskManager Socket)
    (actionServerIds idle : List RemoteConnId) :
    taskManager.popIdle actionServerIds idle =
      match idle.dropWhile (!taskManager.reusable actionServerIds ·) with
      | [] =>
          (taskManager.connIdProvider.getNextId.1, { taskManager with
            connIdProvider := taskManager.connIdProvider.getNextId.2
            idleConnIdList := [] })
      | connId :: rest =>
          (connId, { taskManager with idleConnIdList := rest }) := by
  induction idle with
  | nil => rfl
  | cons connId rest ih =>
      unfold TaskManager.popIdle
      by_cases hreusable :
          taskManager.reusable actionServerIds connId = true
      · simp [hreusable]
      · simp only [hreusable, if_false, Bool.false_eq_true]
        rw [ih, List.dropWhile_cons_of_pos (by simp [hreusable])]

end Operations

/-! ## The invariant -/

/-- The connection ends with this step. -/
def Effect.ends (effect : Effect) : Bool := effect.rest.all (!·.isRunning)

namespace RelayState

variable (relay : RelayState)

/-- A free identity that the next accept would hand out. -/
def reusable (connId : RemoteConnId) : Bool :=
  relay.manager.taskManager.reusable
    (serverConnIds relay.manager.serverConnMap) connId

/-- The next accept mints an identity. -/
def Mints : Prop := ∀ connId ∈ relay.idleIds, relay.reusable connId = false

instance : Decidable relay.Mints :=
  inferInstanceAs (Decidable (∀ _ ∈ _, _))

/-- A task loses no identity: a deregistration finds a channel, or the identity
is kept otherwise, and an accept passes over free identities in use only, while
there are identities left. -/
def KeepsIds : ManagerTask → Prop
  | .accept =>
      (∀ connId ∈ relay.idleIds.takeWhile (!relay.reusable ·),
          connId ∈ relay.heldIds) ∧
        (relay.Mints → relay.heldIds.length + 1 < 2 ^ 32)
  | task =>
      ∀ connId ∈ task.leaver,
        relay.manager.taskManager.getConnSenderChan connId ≠ none ∨
          connId ∈ relay.idleIds ∨
            connId ∈ { relay with queue := relay.queue.tail }.heldIds

instance (task : ManagerTask) : Decidable (relay.KeepsIds task) := by
  unfold KeepsIds
  cases task <;> infer_instance

/-- No step loses an identity: tasks keep them, and a connection that ends
deregisters, or its identity is kept otherwise. -/
def ReturnsIds : Event → Prop
  | .connection socket event =>
      ∀ connection ∈ relay.connections.lookup socket,
        ∀ effect ∈ connection.handler.step socket connection.connId event,
          connection.handler.isRunning = true → effect.ends = true →
            (effect.task connection.connId).bind (·.leaver) =
                some connection.connId ∨
              connection.connId ∈ relay.idleIds ∨
                connection.connId ∈ (relay.dropConnection socket).heldIds
  | .receive _ => ∀ envelope ∈ relay.queue.head?, relay.KeepsIds envelope.task
  | _ => True

instance (event : Event) : Decidable (relay.ReturnsIds event) :=
  match event with
  | .connection _ _ =>
      inferInstanceAs (Decidable (∀ _ ∈ relay.connections.lookup _, ∀ _ ∈ _, _))
  | .receive _ => inferInstanceAs (Decidable (∀ _ ∈ relay.queue.head?, _))
  | .arrive | .shutdown | .send | .flush _ | .recv _ _ =>
      inferInstanceAs (Decidable True)

/-- The identity is held or free. -/
def Keeps (connId : RemoteConnId) : Prop :=
  connId ∈ relay.heldIds ∨ connId ∈ relay.idleIds

/-- The sockets beyond the accepted ones have no party. -/
def Accepted : Prop :=
  ∀ socket, relay.nextSocket ≤ socket → relay.parties socket = none

end RelayState

/-- What one state keeps, the other keeps. -/
structure Conserves (relay next : RelayState) : Prop where
  accepted : next.Accepted
  kept : ∀ connId, relay.Keeps connId → next.Keeps connId

section Steps

variable {settings : Settings} {relay next : RelayState} {event : Event}
  {connId : RemoteConnId}

/-- More parties and more tasks hold more identities. -/
theorem heldIds_mono
    (hparties : ∀ socket handler,
      relay.parties socket = some (connId, handler) →
        handler.isRunning = true → connId ∈ next.heldIds)
    (htasks : ∀ envelope ∈ relay.queue ++ relay.deferred,
      envelope.task.leaver = some connId → connId ∈ next.heldIds)
    (hheld : connId ∈ relay.heldIds) : connId ∈ next.heldIds := by
  rcases mem_heldIds.mp hheld with
    ⟨socket, handler, hparty, hrunning⟩ | ⟨envelope, hmem, hleaver⟩
  · exact hparties socket handler hparty hrunning
  · exact htasks envelope hmem hleaver

/-- Taking a message does not end a connection. -/
theorem running_of_receive {before : Handler} {late : Bool}
    {message : ConnTask} {effect : Effect}
    (hrunning : before.isRunning = true)
    (hreceive : before.receive late message = some effect) :
    effect.ends = false := by
  unfold Handler.receive at hreceive
  split at hreceive <;> cases hreceive <;> cases hrunning <;>
    cases message <;>
    simp only [receiveRegistered, receiveControl, receiveServer, receiveAck,
      receiveStream, receiveStatus, retry] <;>
    repeat' split
  all_goals rfl

theorem conserves_moves {socket : Socket} {moved : RemoteConnId}
    {before : Handler} {effect : Effect} (haccepted : relay.Accepted)
    (hreturns : relay.ReturnsIds event)
    (hbefore : relay.parties socket = some (moved, before))
    (hmoves : HandlerMove socket moved before effect event)
    (hrests : ManagerRests relay next)
    (hparties : next.parties =
      Function.update relay.parties socket (effect.rest.map (moved, ·)))
    (htasks : ∀ envelope, envelope ∈ next.queue ++ next.deferred ↔
      envelope ∈ relay.queue ++ relay.deferred ∨
        ∃ task, effect.task moved = some task ∧
          envelope = ⟨some socket, task⟩) :
    Conserves relay next := by
  have hdropped : (relay.dropConnection socket).parties =
      Function.update relay.parties socket none :=
    relay.parties_putHandler socket ⟨moved, before, []⟩ none
  have hkeep : ∀ connId, connId ∈ (relay.dropConnection socket).heldIds →
      connId ∈ next.heldIds := by
    intro connId hheld
    refine heldIds_mono (fun other handler hparty hrunning => ?_)
      (fun envelope hmem hleaver => ?_) hheld
    · rw [hdropped, Function.update_apply] at hparty
      split at hparty
      · cases hparty
      · rename_i hne
        refine mem_heldIds.mpr (.inl ⟨other, handler, ?_, hrunning⟩)
        rw [hparties, Function.update_of_ne hne]
        exact hparty
    · exact mem_heldIds.mpr
        (.inr ⟨envelope, (htasks envelope).mpr (.inl hmem), hleaver⟩)
  have hmoved : before.isRunning = true →
      moved ∈ next.heldIds ∨ moved ∈ relay.idleIds := by
    intro hrunning
    by_cases hends : effect.ends = true
    · cases hmoves with
      | receive hreceive =>
          rw [running_of_receive hrunning hreceive] at hends
          cases hends
      | step hstep =>
          obtain ⟨connection, hlookup, heq⟩ :=
            Option.map_eq_some_iff.mp hbefore
          obtain ⟨rfl, rfl⟩ := Prod.mk.inj heq
          rcases hreturns connection hlookup effect hstep hrunning hends with
            hleaver | hidle | hheld
          · obtain ⟨task, htask, hleaver⟩ :=
              Option.bind_eq_some_iff.mp hleaver
            exact .inl (mem_heldIds.mpr (.inr ⟨⟨some socket, task⟩,
              (htasks _).mpr (.inr ⟨task, htask, rfl⟩), hleaver⟩))
          · exact .inr hidle
          · exact .inl (hkeep _ hheld)
    · cases hrest : effect.rest with
      | none => exact absurd (by rw [Effect.ends, hrest]; rfl) hends
      | some after =>
          have hafter : after.isRunning = true := by
            simpa [Effect.ends, hrest] using hends
          refine .inl (mem_heldIds.mpr (.inl ⟨socket, after, ?_, hafter⟩))
          rw [hparties, Function.update_self, hrest, Option.map_some]
  refine ⟨fun other hle => ?_, fun connId hkept => ?_⟩
  · rw [hrests.nextSocket] at hle
    have hnone := haccepted other hle
    have hne : other ≠ socket := by
      rintro rfl
      rw [hnone] at hbefore
      cases hbefore
    rw [hparties, Function.update_of_ne hne]
    exact hnone
  · rw [Keeps, idleIds, hrests.manager]
    rcases hkept with hheld | hidle
    · rcases mem_heldIds.mp hheld with
        ⟨other, handler, hparty, hrunning⟩ | ⟨envelope, hmem, hleaver⟩
      · by_cases heq : other = socket
        · rw [heq, hbefore] at hparty
          obtain ⟨rfl, rfl⟩ := Prod.mk.inj (Option.some.inj hparty)
          exact hmoved hrunning
        · refine .inl (mem_heldIds.mpr (.inl ⟨other, handler, ?_, hrunning⟩))
          rw [hparties, Function.update_of_ne heq]
          exact hparty
      · exact .inl (mem_heldIds.mpr
          (.inr ⟨envelope, (htasks envelope).mpr (.inl hmem), hleaver⟩))
    · exact .inr hidle

/-- A step that leaves the manager alone and loses no party and no task. -/
theorem conserves_rests (haccepted : relay.Accepted)
    (hrests : ManagerRests relay next) (hparties : next.parties = relay.parties)
    (htasks : ∀ envelope ∈ relay.queue ++ relay.deferred,
      envelope ∈ next.queue ++ next.deferred) : Conserves relay next where
  accepted := by
    rw [Accepted, hparties, hrests.nextSocket]
    exact haccepted
  kept connId hkept := by
    rw [Keeps, idleIds, hrests.manager]
    refine hkept.imp_left fun hheld => ?_
    refine heldIds_mono (fun other handler hparty hrunning => ?_)
      (fun envelope hmem hleaver => ?_) hheld
    · exact mem_heldIds.mpr
        (.inl ⟨other, handler, hparties ▸ hparty, hrunning⟩)
    · exact mem_heldIds.mpr (.inr ⟨envelope, htasks envelope hmem, hleaver⟩)

theorem keepsIds_leaver {task : ManagerTask} (hne : task ≠ .accept)
    (hkeeps : relay.KeepsIds task) (hleaver : task.leaver = some connId) :
    relay.manager.taskManager.getConnSenderChan connId ≠ none ∨
      connId ∈ relay.idleIds ∨
        connId ∈ { relay with queue := relay.queue.tail }.heldIds := by
  cases task with
  | accept => exact absurd rfl hne
  | deRegisterServerConn | deRegisterClientConn => exact hkeeps connId hleaver
  | _ => cases hleaver

/-- The rest of the queue and the parties hold what they held. -/
theorem heldIds_settled {sender : Option Socket} {manager : Manager}
    {outcome : Outcome} {rest : List Envelope} {now : Instant}
    (haccepted : relay.Accepted)
    (hsettled : Settled { relay with queue := rest, clock := now } sender
      manager outcome next)
    (hheld : connId ∈ { relay with queue := rest }.heldIds) :
    connId ∈ next.heldIds := by
  obtain ⟨-, -, hkept⟩ := hsettled.keeps haccepted
  refine heldIds_mono (fun socket handler hparty hrunning => ?_)
    (fun envelope hmem hleaver => ?_) hheld
  · exact mem_heldIds.mpr
      (.inl ⟨socket, handler, hkept _ _ hparty, hrunning⟩)
  · refine mem_heldIds.mpr (.inr ⟨envelope, ?_, hleaver⟩)
    rw [hsettled.queue, hsettled.deferred]
    exact hmem

/-- A task that hands out nothing. -/
theorem conserves_handles {now : Instant} {envelope : Envelope}
    {queue : List Envelope} (haccepted : relay.Accepted)
    (hqueue : relay.queue = envelope :: queue)
    (hne : envelope.task ≠ .accept) (hkeeps : relay.KeepsIds envelope.task)
    (hsettled : Settled { relay with queue, clock := now } envelope.sender
      (relay.manager.handle settings now envelope.task).1
      (relay.manager.handle settings now envelope.task).2 next) :
    Conserves relay next := by
  have hfrees : Frees relay.manager next.manager := by
    rw [hsettled.manager]
    exact frees_handle hne
  refine ⟨(hsettled.keeps haccepted).1, fun connId hkept => ?_⟩
  rcases hkept with hheld | hidle
  · have hsplit : connId ∈ { relay with queue }.heldIds ∨
        envelope.task.leaver = some connId := by
      rcases mem_heldIds.mp hheld with hparty | ⟨other, hmem, hleaver⟩
      · exact .inl (mem_heldIds.mpr (.inl hparty))
      · rw [hqueue] at hmem
        rcases List.mem_cons.mp hmem with rfl | hrest
        · exact .inr hleaver
        · exact .inl (mem_heldIds.mpr (.inr ⟨other, hrest, hleaver⟩))
    rcases hsplit with hrest | hleaver
    · exact .inl (heldIds_settled haccepted hsettled hrest)
    · have hgone : next.manager.taskManager.getConnSenderChan connId = none := by
        rw [hsettled.manager]
        exact getConnSenderChan_leaver hleaver
      rcases keepsIds_leaver hne hkeeps hleaver with
        hchannel | hidle | hrest
      · exact .inr (hfrees.mem_idle_of_deregistered hgone (.inl hchannel))
      · exact .inr (hfrees.idle hidle)
      · rw [hqueue] at hrest
        exact .inl (heldIds_settled haccepted hsettled hrest)
  · exact .inr (hfrees.idle hidle)

/-- As many connections hold identities as there are identities held. -/
theorem nextId_le_length {provider : RemoteIdProvider}
    {held : List RemoteConnId}
    (hheld : ∀ connId, provider.isValidId connId = true → connId ∈ held) :
    provider.nextId.asU32 ≤ held.length := by
  have hsubset : List.range provider.nextId.asU32 ⊆ held.map (·.asU32) := by
    intro value hvalue
    have hlt := List.mem_range.mp hvalue
    exact List.mem_map.mpr ⟨⟨value, hlt.trans provider.nextId.lt⟩,
      hheld _ (by simpa [RemoteIdProvider.isValidId] using hlt), rfl⟩
  have hle := (List.nodup_range.subperm hsubset).length_le
  rwa [List.length_range, List.length_map] at hle

end Steps

/-! ## Accepts -/

namespace RelayState

variable {relay : RelayState}

theorem getConnId_eq_of_mints (hmints : relay.Mints) :
    relay.manager.taskManager.getConnId
        (serverConnIds relay.manager.serverConnMap) =
      (relay.manager.taskManager.connIdProvider.getNextId.1,
        { relay.manager.taskManager with
          connIdProvider := relay.manager.taskManager.connIdProvider.getNextId.2
          idleConnIdList := [] }) := by
  have hnil : relay.idleIds.dropWhile (!relay.reusable ·) = [] := by
    refine List.dropWhile_eq_nil_iff.mpr fun connId hmem => ?_
    rw [hmints connId hmem]
    rfl
  calc relay.manager.taskManager.getConnId
        (serverConnIds relay.manager.serverConnMap)
      = _ := popIdle_eq _ _ _
    _ = _ := by
      change (match relay.idleIds.dropWhile (!relay.reusable ·) with
        | [] => _
        | connId :: rest => _) = _
      rw [hnil]

/-- Otherwise an accept hands out a free identity, and drops those before it. -/
theorem getConnId_eq_of_not_mints (hreuses : ¬relay.Mints) :
    ∃ connId rest,
      relay.idleIds =
        relay.idleIds.takeWhile (!relay.reusable ·) ++ connId :: rest ∧
      relay.manager.taskManager.getConnId
          (serverConnIds relay.manager.serverConnMap) =
        (connId, { relay.manager.taskManager with idleConnIdList := rest }) := by
  have hsplit : relay.idleIds = relay.idleIds.takeWhile (!relay.reusable ·) ++
      relay.idleIds.dropWhile (!relay.reusable ·) :=
    List.takeWhile_append_dropWhile.symm
  have heq := popIdle_eq relay.manager.taskManager
    (serverConnIds relay.manager.serverConnMap) relay.idleIds
  change _ = (match relay.idleIds.dropWhile (!relay.reusable ·) with
    | [] => _
    | connId :: rest => _) at heq
  cases hrest : relay.idleIds.dropWhile (!relay.reusable ·) with
  | nil =>
      refine absurd (fun connId hmem => ?_) hreuses
      simpa using List.dropWhile_eq_nil_iff.mp hrest connId hmem
  | cons connId rest =>
      rw [hrest] at hsplit heq
      exact ⟨connId, rest, hsplit, heq⟩

end RelayState

section Accepts

variable {relay next : RelayState} {now : Instant} {sender : Option Socket}
  {queue : List Envelope}

/-- The new connection holds what the accept hands out, and others hold what
they held. -/
theorem heldIds_accept (haccepted : relay.Accepted)
    (hqueue : relay.queue = ⟨sender, .accept⟩ :: queue)
    (hsettled : Settled { relay with queue, clock := now } sender
      relay.manager.accept.1 relay.manager.accept.2 next) :
    (relay.manager.taskManager.getConnId
        (serverConnIds relay.manager.serverConnMap)).1 ∈ next.heldIds ∧
      ∀ connId, connId ∈ relay.heldIds → connId ∈ next.heldIds := by
  constructor
  · refine mem_heldIds.mpr (.inl ⟨relay.nextSocket, .initial, ?_, rfl⟩)
    rw [hsettled.parties]
    exact Function.update_self ..
  · intro connId hheld
    refine heldIds_settled haccepted hsettled ?_
    refine heldIds_mono (fun socket handler hparty hrunning => ?_)
      (fun envelope hmem hleaver => ?_) hheld
    · exact mem_heldIds.mpr (.inl ⟨socket, handler, hparty, hrunning⟩)
    · rw [hqueue] at hmem
      rcases List.mem_cons.mp hmem with rfl | hrest
      · cases hleaver
      · exact mem_heldIds.mpr (.inr ⟨envelope, hrest, hleaver⟩)

theorem taskManager_accept
    (hsettled : Settled { relay with queue, clock := now } sender
      relay.manager.accept.1 relay.manager.accept.2 next) :
    next.manager.taskManager =
      (relay.manager.taskManager.getConnId
        (serverConnIds relay.manager.serverConnMap)).2 := by
  rw [hsettled.manager]
  rfl

/-- An accept gives up only identities in use. -/
theorem conserves_accepts (haccepted : relay.Accepted)
    (hqueue : relay.queue = ⟨sender, .accept⟩ :: queue)
    (hkeeps : relay.KeepsIds .accept)
    (hsettled : Settled { relay with queue, clock := now } sender
      relay.manager.accept.1 relay.manager.accept.2 next) :
    Conserves relay next := by
  obtain ⟨hnew, hheld⟩ := heldIds_accept haccepted hqueue hsettled
  have htaskManager := taskManager_accept hsettled
  refine ⟨(hsettled.keeps haccepted).1, fun connId hkept => ?_⟩
  rcases hkept with hold | hidle
  · exact .inl (hheld connId hold)
  by_cases hmints : relay.Mints
  · refine .inl (hheld connId (hkeeps.1 connId ?_))
    rwa [List.takeWhile_eq_self_iff.mpr fun other hmem => by
      rw [hmints other hmem]; rfl]
  · obtain ⟨reused, rest, hsplit, heq⟩ := getConnId_eq_of_not_mints hmints
    rw [heq] at hnew htaskManager
    rw [hsplit] at hidle
    rcases List.mem_append.mp hidle with hpassed | hmem
    · exact .inl (hheld connId (hkeeps.1 connId hpassed))
    rcases List.mem_cons.mp hmem with rfl | hlater
    · exact .inl hnew
    · refine .inr ?_
      rw [idleIds, htaskManager]
      exact hlater

/-- Without a usable free identity the counter grows to at most the number of
held identities. -/
theorem mints_accept (haccepted : relay.Accepted)
    (hvalid : ∀ connId : RemoteConnId,
      relay.manager.taskManager.connIdProvider.isValidId connId = true →
        relay.Keeps connId)
    (hqueue : relay.queue = ⟨sender, .accept⟩ :: queue)
    (hkeeps : relay.KeepsIds .accept) (hmints : relay.Mints)
    (hsettled : Settled { relay with queue, clock := now } sender
      relay.manager.accept.1 relay.manager.accept.2 next) :
    next.manager.taskManager.connIdProvider.nextId.asU32 =
        relay.manager.taskManager.connIdProvider.nextId.asU32 + 1 ∧
      ∀ connId, next.manager.taskManager.connIdProvider.isValidId connId =
        true → connId ∈ next.heldIds := by
  obtain ⟨hnew, hheld⟩ := heldIds_accept haccepted hqueue hsettled
  have htaskManager := taskManager_accept hsettled
  rw [getConnId_eq_of_mints hmints] at hnew htaskManager
  have hall : ∀ connId, relay.manager.taskManager.connIdProvider.isValidId
      connId = true → connId ∈ relay.heldIds := by
    intro connId hminted
    rcases hvalid connId hminted with hold | hidle
    · exact hold
    · refine hkeeps.1 connId ?_
      rwa [List.takeWhile_eq_self_iff.mpr fun other hmem => by
        rw [hmints other hmem]; rfl]
  have hcount := nextId_le_length hall
  have hroom := hkeeps.2 hmints
  have hnext : next.manager.taskManager.connIdProvider.nextId.asU32 =
      relay.manager.taskManager.connIdProvider.nextId.asU32 + 1 := by
    rw [htaskManager]
    exact Nat.mod_eq_of_lt (by omega)
  refine ⟨hnext, fun connId hminted => ?_⟩
  have hlt : connId.asU32 <
      relay.manager.taskManager.connIdProvider.nextId.asU32 + 1 := by
    rw [← hnext]
    simpa [RemoteIdProvider.isValidId] using hminted
  rcases Nat.lt_succ_iff_lt_or_eq.mp hlt with hold | hequal
  · exact hheld connId (hall connId
      (by simpa [RemoteIdProvider.isValidId] using hold))
  · rw [RemoteConnId.ext hequal]
    exact hnew

end Accepts

/-! ## Runs -/

/-- What a step of the relay does with identities. -/
structure IdUse where
  /-- How many connections hold an identity before the step. -/
  live : ℕ
  /-- What `get_conn_id` returns in it. -/
  returned : List RemoteConnId
  /-- Those of them that are new. -/
  minted : List RemoteConnId
deriving DecidableEq

def RelayState.returnedIds : RelayState → Event → List RemoteConnId :=
  RelayState.handling fun manager _ task =>
    match task with
    | .accept =>
        [(manager.taskManager.getConnId
          (serverConnIds manager.serverConnMap)).1]
    | _ => []

def idUses (relay : RelayState) (event : Event) : List IdUse :=
  [⟨relay.heldIds.length, relay.returnedIds event,
    if relay.Mints then relay.returnedIds event else []⟩]

/-- Every identity that was ever returned is held or free, and no more were
minted than there were ever connections that held one. -/
structure IdsConserved (relay : RelayState) (log : List IdUse) : Prop where
  kept : ∀ connId ∈ log.flatMap (·.returned),
    connId ∈ relay.heldIds ∨ connId ∈ relay.idleIds
  minted : ∀ bound, (∀ use ∈ log, use.live ≤ bound) →
    relay.heldIds.length ≤ bound → (log.flatMap (·.minted)).length ≤ bound

/-- The invariant of the identities along a run. -/
structure IdsKept (relay : RelayState) (log : List IdUse) : Prop where
  accepted : relay.Accepted
  returned : ∀ connId ∈ log.flatMap (·.returned), relay.Keeps connId
  valid : ∀ connId : RemoteConnId,
    relay.manager.taskManager.connIdProvider.isValidId connId = true →
      relay.Keeps connId
  counted : (log.flatMap (·.minted)).length =
    relay.manager.taskManager.connIdProvider.nextId.asU32
  bounded : ∀ bound, (∀ use ∈ log, use.live ≤ bound) →
    relay.heldIds.length ≤ bound → (log.flatMap (·.minted)).length ≤ bound

section Runs

variable {settings : Settings} {relay next : RelayState} {event : Event}
  {log : List IdUse}

/-- A step that hands out nothing. -/
theorem IdsKept.pass (hkept : IdsKept relay log)
    (hconserves : Conserves relay next)
    (hprovider : next.manager.taskManager.connIdProvider =
      relay.manager.taskManager.connIdProvider)
    (hreturned : ∀ connId ∈ relay.returnedIds event, next.Keeps connId)
    (hminted : relay.Mints → relay.returnedIds event = []) :
    IdsKept next (log ++ idUses relay event) := by
  have hnone : (if relay.Mints then relay.returnedIds event else []) = [] :=
    ite_eq_right_iff.mpr hminted
  have hsame : (log ++ idUses relay event).flatMap (·.minted) =
      log.flatMap (·.minted) := by
    simp [idUses, hnone]
  refine ⟨hconserves.accepted, fun connId hmem => ?_, fun connId hvalid => ?_,
    ?_, fun bound hlog _ => ?_⟩
  · rw [List.flatMap_append, List.mem_append] at hmem
    rcases hmem with hbefore | hnow
    · exact hconserves.kept connId (hkept.returned connId hbefore)
    · exact hreturned connId (by simpa [idUses] using hnow)
  · rw [hprovider] at hvalid
    exact hconserves.kept connId (hkept.valid connId hvalid)
  · rw [hsame, hprovider]
    exact hkept.counted
  · rw [hsame]
    refine hkept.bounded bound (fun use hmem => ?_) ?_
    · exact hlog use (List.mem_append_left _ hmem)
    · exact hlog _ (List.mem_append_right _ (List.mem_singleton_self _))

/-- An accept that mints an identity. -/
theorem IdsKept.mint (hkept : IdsKept relay log)
    (hconserves : Conserves relay next)
    (hnext : next.manager.taskManager.connIdProvider.nextId.asU32 =
      relay.manager.taskManager.connIdProvider.nextId.asU32 + 1)
    (hheld : ∀ connId, next.manager.taskManager.connIdProvider.isValidId
      connId = true → connId ∈ next.heldIds)
    (hreturned : ∀ connId ∈ relay.returnedIds event, next.Keeps connId)
    (hmints : relay.Mints) (hone : (relay.returnedIds event).length = 1) :
    IdsKept next (log ++ idUses relay event) := by
  have hcount : ((log ++ idUses relay event).flatMap (·.minted)).length =
      next.manager.taskManager.connIdProvider.nextId.asU32 := by
    rw [List.flatMap_append, List.length_append, hkept.counted, hnext]
    simp [idUses, if_pos hmints, hone]
  refine ⟨hconserves.accepted, fun connId hmem => ?_,
    fun connId hvalid => .inl (hheld connId hvalid), hcount,
    fun bound _ hlive => ?_⟩
  · rw [List.flatMap_append, List.mem_append] at hmem
    rcases hmem with hbefore | hnow
    · exact hconserves.kept connId (hkept.returned connId hbefore)
    · exact hreturned connId (by simpa [idUses] using hnow)
  · rw [hcount]
    exact (nextId_le_length hheld).trans hlive

/-- Every step keeps the identities, and mints only while all are held. -/
theorem idsKept_step (hkept : IdsKept relay log)
    (hreturns : relay.ReturnsIds event)
    (hstep : relay.step settings event = some next) :
    IdsKept next (log ++ idUses relay event) := by
  have haccepted := hkept.accepted
  have hidle : ∀ hconserves : Conserves relay next,
      next.manager.taskManager.connIdProvider =
        relay.manager.taskManager.connIdProvider →
      relay.returnedIds event = [] →
      IdsKept next (log ++ idUses relay event) := by
    intro hconserves hprovider hnone
    refine hkept.pass hconserves hprovider (fun connId hmem => ?_)
      fun _ => hnone
    rw [hnone] at hmem
    cases hmem
  cases relayMove_of_step hstep with
  | enqueues hevent _ hrests hqueue hdeferred hparties =>
      refine hidle (conserves_rests haccepted hrests hparties
        fun envelope hmem => ?_) (by rw [hrests.manager])
        (by rcases hevent with rfl | rfl <;> rfl)
      rw [hqueue, hdeferred]
      simp only [List.mem_append] at hmem ⊢
      tauto
  | @flushes index flushed hget hrests hqueue hdeferred hparties =>
      refine hidle (conserves_rests haccepted hrests hparties
        fun envelope hmem => ?_) (by rw [hrests.manager]) rfl
      rw [hqueue, hdeferred]
      rcases List.mem_append.mp hmem with hqueued | hwaiting
      · simp [hqueued]
      · rcases mem_of_eraseIdx hget hwaiting with rfl | hkept
        · simp
        · simp [hkept]
  | @moves event socket moved before effect hbefore hmoves hrests hparties
      htasks =>
      refine hidle (conserves_moves haccepted hreturns hbefore hmoves hrests
        hparties fun envelope => ?_) (by rw [hrests.manager])
        (by cases hmoves <;> rfl)
      have hnew : envelope ∈
          (effect.task moved).toList.map (Envelope.mk (some socket)) ↔
            ∃ task, effect.task moved = some task ∧
              envelope = ⟨some socket, task⟩ := by
        simp only [List.mem_map, Option.mem_toList]
        exact exists_congr fun task => and_congr_right fun _ => eq_comm
      rw [← hnew]
      rcases htasks with ⟨hqueue, hdeferred⟩ | ⟨hqueue, hdeferred, -⟩ <;>
        rw [hqueue, hdeferred] <;>
        simp only [List.mem_append] <;>
        tauto
  | @handles now envelope queue hphase hqueue hnow hsettled =>
      have hkeeps : relay.KeepsIds envelope.task :=
        hreturns envelope (by rw [hqueue]; rfl)
      obtain ⟨sender, task⟩ := envelope
      by_cases haccept : task = .accept
      · subst haccept
        have hone : relay.returnedIds (.receive now) =
            [(relay.manager.taskManager.getConnId
              (serverConnIds relay.manager.serverConnMap)).1] := by
          rw [returnedIds, handling, hphase, hqueue]
        have hconserves :=
          conserves_accepts haccepted hqueue hkeeps hsettled
        have hreturned : ∀ connId ∈ relay.returnedIds (.receive now),
            next.Keeps connId := by
          intro connId hmem
          rw [hone, List.mem_singleton] at hmem
          rw [hmem]
          exact .inl (heldIds_accept haccepted hqueue hsettled).1
        by_cases hmints : relay.Mints
        · obtain ⟨hnext, hheld⟩ := mints_accept haccepted hkept.valid hqueue
            hkeeps hmints hsettled
          exact hkept.mint hconserves hnext hheld hreturned hmints
            (by rw [hone]; rfl)
        · obtain ⟨connId, rest, -, heq⟩ := getConnId_eq_of_not_mints hmints
          refine hkept.pass hconserves ?_ hreturned fun h => absurd h hmints
          rw [taskManager_accept hsettled, heq]
      · refine hidle (conserves_handles haccepted hqueue haccept hkeeps
          hsettled) ?_ ?_
        · rw [hsettled.manager]
          exact (frees_handle haccept).provider
        · rw [returnedIds, handling, hphase, hqueue]
          cases task <;> first | rfl | exact absurd rfl haccept
  | resumes hphase hsent hsettled =>
      have hfrees : Frees relay.manager next.manager := by
        rw [hsettled.manager]
        exact frees_resume _ _
      refine hidle ⟨(hsettled.keeps haccepted).1, fun connId hkept => ?_⟩
        hfrees.provider rfl
      rcases hkept with hheld | hidle
      · exact .inl (heldIds_settled haccepted
          ⟨hsettled.1, hsettled.2, hsettled.3, hsettled.4, hsettled.5,
            hsettled.6, hsettled.7⟩ hheld)
      · exact .inr (hfrees.idle hidle)

/-- In every run whose steps return the identities, none is lost, and no more
are minted than connections are alive at once. -/
theorem idsConserved_of_reachable
    (hreachable : (((relaySystem settings).restrict
      RelayState.ReturnsIds).logging idUses).Reachable (relay, log)) :
    IdsConserved relay log := by
  have hkept : IdsKept relay log := by
    refine hreachable.invariant
      (motive := fun logged => IdsKept logged.1 logged.2) ?_ ?_
    · rintro ⟨_, _⟩ ⟨rfl, rfl⟩
      exact ⟨fun _ _ => rfl, fun _ hconnId => absurd hconnId List.not_mem_nil,
        fun _ hvalid => by (cases hvalid), rfl, fun _ _ _ => Nat.zero_le _⟩
    · rintro ⟨before, log⟩ event ⟨after, longer⟩ hbefore
        ⟨⟨hreturns, hstep⟩, hlonger⟩
      cases hlonger
      exact idsKept_step hbefore hreturns hstep
  exact ⟨hkept.returned, hkept.bounded⟩

/-! ## Identities lost to churn -/

/-- A connection whose authentication fails. -/
def failedVisit (socket : Socket) : List Event :=
  [.arrive, .receive 0, .connection socket .fail]

/-- Two failed connections, one after the other, use two identities. -/
theorem failedVisits_lose :
    ∃ relay log,
      ((relaySystem Settings.default).logging idUses).Reachable (relay, log) ∧
      ¬IdsConserved relay log := by
  have hrun : ((failedVisit 0 ++ failedVisit 1).foldlM
      (Transition.System.logged idUses (RelayState.step Settings.default))
        (RelayState.init, [])).map (fun logged =>
          (logged.1.heldIds.length, logged.2.map (·.live),
            (logged.2.flatMap (·.minted)).length)) =
      some (0, [0, 0, 1, 0, 0, 1], 2) := by
    decide +kernel
  obtain ⟨⟨relay, log⟩, hfold, hcounts⟩ := Option.map_eq_some_iff.mp hrun
  refine ⟨relay, log, Transition.System.reachable_of_foldlM
    (Transition.System.logged_sound fun _ _ _ hstep => hstep) ?_ hfold,
    fun hconserved => ?_⟩
  · exact ⟨rfl, rfl⟩
  · simp only [Prod.mk.injEq] at hcounts
    obtain ⟨hheld, hlive, hminted⟩ := hcounts
    have hle := hconserved.minted 1 (fun use hmem => ?_) (by omega)
    · omega
    · have hmap : use.live ∈ log.map (·.live) := List.mem_map_of_mem hmem
      rw [hlive] at hmap
      revert hmap
      generalize use.live = live
      revert live
      simp

/-- A provider that comes, leaves and comes back. -/
def returningProvider : List Event :=
  connect 0 (adminRequest (.register ['a'] false false none)) ++
    [.send, .recv 0 false, .connection 0 .close, .connection 0 .post,
      .receive 0] ++
    connect 1 (adminRequest (.register ['a'] false false none)) ++ [.send]

/-- It uses one identity. -/
theorem idsConserved_returning_provider :
    ∃ relay log, IdsConserved relay log ∧ relay.idleIds = [] ∧
      (log.flatMap (·.returned)).length = 2 ∧
        (log.flatMap (·.minted)).length = 1 := by
  have hrun : (returningProvider.foldlM (Transition.System.logged idUses
      (Transition.System.checked RelayState.ReturnsIds
        (RelayState.step Settings.default))) (RelayState.init, [])).map
        (fun logged => (logged.1.idleIds,
          (logged.2.flatMap (·.returned)).length,
          (logged.2.flatMap (·.minted)).length)) =
      some ([], 2, 1) := by
    decide +kernel
  obtain ⟨⟨relay, log⟩, hfold, hcounts⟩ := Option.map_eq_some_iff.mp hrun
  simp only [Prod.mk.injEq] at hcounts
  have hreachable : (((relaySystem Settings.default).restrict
      RelayState.ReturnsIds).logging idUses).Reachable (relay, log) := by
    refine Transition.System.reachable_of_foldlM
      (Transition.System.logged_sound Transition.System.checked_sound) ?_ hfold
    exact ⟨rfl, rfl⟩
  exact ⟨relay, log, idsConserved_of_reachable hreachable, hcounts⟩

end Runs

end PbMapper.Relay

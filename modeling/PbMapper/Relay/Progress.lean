import PbMapper.Relay.System

/-!
# Progress of the manager

The manager awaits every message it sends to a connection, except a retirement.
A provider's channel is drained by a writer that awaits the provider's socket,
and a subscriber's by a handler that awaits the subscriber's, so one peer that
stops reading can stop the manager, once its channel is full.  As long as every
task finds the channels it addresses with a free place, the manager never waits
for anyone.
-/

namespace PbMapper.Relay

namespace RelayState

variable (settings : Settings) (relay : RelayState)

/-- The manager waits for a full channel whose reader waits for its own peer's
socket, or for the manager. -/
def stalled : Bool :=
  match relay.phase with
  | .sending _ outgoing =>
      match relay.receiver outgoing.channel with
      | some connection =>
          isFull connection &&
            (connection.handler.waitsOnSocket ||
              connection.handler.waitsOnManager)
      | none => false
  | _ => false

/-- The manager is not stalled, and what it is sending can be sent. -/
structure ManagerProgress : Prop where
  notStalled : relay.stalled = false
  canSend : ∀ sender outgoing, relay.phase = .sending sender outgoing →
    (relay.step settings .send).isSome = true

/-- Room for `count` messages, unless the channel is closed. -/
def hasPlaces (channel : Socket) (count : ℕ) : Bool :=
  match relay.receiver channel with
  | none => true
  | some connection =>
      connection.buffer.length + count ≤ connection.handler.capacity

/-- How many messages of a subscription may go to one channel: the stream
request, and the answer as well if it is the subscriber's own. -/
def requestPlaces (connSender channel : Socket) : ℕ :=
  if channel = connSender then 2 else 1

/-- The channel signed up for a connection, if any, has room. -/
def clientHasPlaces (connId : RemoteConnId) (count : Socket → ℕ) : Bool :=
  match relay.manager.taskManager.getConnSenderChan connId with
  | none => true
  | some channel => relay.hasPlaces channel (count channel)

/-- Every channel a task may be answered on, or passed on to, has room. -/
def hasRoomFor : ManagerTask → Bool
  | .register _ _ _ _ _ connSender => relay.hasPlaces connSender 1
  | .status connSender _ _ _ => relay.hasPlaces connSender 1
  | .stream _ _ _ clientId _ => relay.clientHasPlaces clientId fun _ => 1
  | .streamAck _ clientId _ => relay.clientHasPlaces clientId fun _ => 1
  | .subcribe key _ connSender _ =>
      relay.hasPlaces connSender 1 &&
        (registrations relay.manager.serverConnMap key).all fun info =>
          relay.clientHasPlaces info.connId (requestPlaces connSender)
  | _ => true

/-- Whenever the manager takes a task, the channels it addresses have room. -/
def ChannelsHaveRoom : Event → Prop
  | .receive _ => ∀ envelope ∈ relay.queue.head?,
      relay.hasRoomFor envelope.task = true
  | _ => True

instance (event : Event) : Decidable (relay.ChannelsHaveRoom event) :=
  match event with
  | .receive _ => inferInstanceAs (Decidable (∀ _ ∈ relay.queue.head?, _))
  | .arrive | .shutdown | .send | .flush _ | .connection _ _ | .recv _ _ =>
      inferInstanceAs (Decidable True)

end RelayState

open RelayState

/-! ## Places -/

section Places

variable {relay next : RelayState} {channel : Socket} {count more : ℕ}

theorem hasPlaces_eq_true :
    relay.hasPlaces channel count = true ↔
      ∀ connection, relay.receiver channel = some connection →
        connection.buffer.length + count ≤ connection.handler.capacity := by
  unfold hasPlaces
  cases relay.receiver channel <;> simp

theorem hasPlaces_mono (hle : count ≤ more)
    (hplaces : relay.hasPlaces channel more = true) :
    relay.hasPlaces channel count = true := by
  rw [hasPlaces_eq_true] at hplaces ⊢
  intro connection hreceiver
  have := hplaces connection hreceiver
  omega

/-- A message takes one place of its channel, and none of the others. -/
theorem hasPlaces_deliver {connection : Connection} {message : ConnTask}
    {target : Socket} (hreceiver : relay.receiver target = some connection)
    (hplaces : relay.hasPlaces channel
      (if channel = target then count + 1 else count) = true) :
    (relay.deliver target connection message).hasPlaces channel count =
      true := by
  rw [hasPlaces_eq_true] at hplaces ⊢
  intro after hafter
  rw [receiver_eq_some] at hafter
  obtain ⟨hlookup, hopen⟩ := hafter
  rcases lookup_deliver hreceiver hlookup with
    ⟨hlookup, hne⟩ | ⟨heq, hopened, hlookup, rfl⟩
  · rw [if_neg hne] at hplaces
    exact hplaces after (receiver_eq_some.mpr ⟨hlookup, hopen⟩)
  · rw [if_pos heq] at hplaces
    have := hplaces connection (heq ▸ hreceiver)
    simp only [List.length_append, List.length_singleton]
    omega

end Places

/-! ## The invariant -/

/-- A pending send, and those that may follow it for the same task, find
room. -/
def OutgoingFits (relay : RelayState) (outgoing : Outgoing) : Prop :=
  relay.hasPlaces outgoing.channel 1 = true ∧
    match outgoing.resume with
    | .streamReq subscription _ rest =>
        relay.hasPlaces subscription.connSender
            (requestPlaces outgoing.channel subscription.connSender) = true ∧
          ∀ info ∈ rest, relay.clientHasPlaces info.connId
            (requestPlaces subscription.connSender) = true
    | _ => True

/-- A connection that has not started has received nothing. -/
def FreshEmpty (relay : RelayState) : Prop :=
  ∀ socket connection, relay.connections.lookup socket = some connection →
    connection.handler = .initial → connection.buffer = []

structure Fits (relay : RelayState) : Prop where
  fresh : FreshEmpty relay
  pending : ∀ sender outgoing, relay.phase = .sending sender outgoing →
    OutgoingFits relay outgoing

section Preservation

variable {settings : Settings} {relay next : RelayState}

theorem one_le_requestPlaces (connSender channel : Socket) :
    1 ≤ requestPlaces connSender channel := by
  unfold requestPlaces
  split <;> decide

theorem requestPlaces_le_two (connSender channel : Socket) :
    requestPlaces connSender channel ≤ 2 := by
  unfold requestPlaces
  split <;> decide

theorem clientHasPlaces_eq_true {connId : RemoteConnId} {count : Socket → ℕ} :
    relay.clientHasPlaces connId count = true ↔
      ∀ channel,
        relay.manager.taskManager.getConnSenderChan connId = some channel →
          relay.hasPlaces channel (count channel) = true := by
  unfold clientHasPlaces
  cases relay.manager.taskManager.getConnSenderChan connId <;> simp

theorem outgoingFits_last {outgoing : Outgoing}
    (hplaces : relay.hasPlaces outgoing.channel 1 = true)
    (hresume : outgoing.resume = .done ∨
      ∃ connId, outgoing.resume = .subcribeResp connId) :
    OutgoingFits relay outgoing := by
  refine ⟨hplaces, ?_⟩
  rcases hresume with hresume | ⟨connId, hresume⟩ <;> rw [hresume] <;> trivial

/-- The candidate loop sends to a channel with room, when those of all
candidates and the subscriber's have room. -/
theorem outgoingFits_selectServer {manager : Manager}
    {subscription : Subscription} {candidates : List ServerConnInfo}
    (htaskManager : relay.manager.taskManager = manager.taskManager)
    (hsubscriber : relay.hasPlaces subscription.connSender 1 = true)
    (hcandidates : ∀ info ∈ candidates, relay.clientHasPlaces info.connId
      (requestPlaces subscription.connSender) = true) :
    OutgoingFits relay (manager.selectServer subscription candidates).2 := by
  obtain ⟨-, ⟨reason, hout⟩ | ⟨candidate, rest, channel, hsuffix, hchannel,
    hout⟩⟩ := manager.selectServer_cases subscription candidates
  · rw [hout]
    exact outgoingFits_last hsubscriber (.inl rfl)
  · rw [← htaskManager] at hchannel
    have hplaces := clientHasPlaces_eq_true.mp
      (hcandidates candidate (hsuffix.subset (List.mem_cons_self ..))) channel
      hchannel
    rw [hout]
    refine ⟨hasPlaces_mono (one_le_requestPlaces _ _) hplaces, ?_,
      fun info hinfo =>
        hcandidates info (hsuffix.subset (List.mem_cons_of_mem _ hinfo))⟩
    by_cases heq : subscription.connSender = channel
    · rw [requestPlaces, if_pos heq.symm] at hplaces
      simpa [requestPlaces, heq] using hplaces
    · simpa [requestPlaces, heq] using hsubscriber

/-- A handler's pending send finds room when its task did. -/
theorem outgoingFits_handle {now : Instant} {task : ManagerTask}
    {outgoing : Outgoing} (hroom : relay.hasRoomFor task = true)
    (houtcome : (relay.manager.handle settings now task).2 = .send outgoing) :
    OutgoingFits
      { relay with manager := (relay.manager.handle settings now task).1 }
      outgoing := by
  cases task with
  | accept | serverConnActivity | deRegisterServerConn
  | deRegisterClientConn | shutdown => cases houtcome
  | register key connId needCodec isDatagram protocolVersion connSender =>
      refine outgoingFits_last ?_ ?_ <;>
        simp only [Manager.handle, Manager.register] at houtcome <;>
        split at houtcome <;> cases houtcome
      · exact hroom
      · exact hroom
      · exact .inl rfl
      · exact .inl rfl
  | status connSender request nameSpace connId =>
      cases houtcome
      exact outgoingFits_last hroom (.inl rfl)
  | retireServerConn key connId reason =>
      simp only [Manager.handle, Manager.retireServerConn] at houtcome
      split at houtcome <;> cases houtcome
  | stream key stream serverId clientId serverGeneration =>
      refine outgoingFits_last ?_ ?_ <;>
        simp only [Manager.handle, Manager.stream, Manager.sendToClient]
          at houtcome <;>
        repeat' split at houtcome
      all_goals cases houtcome
      · rename_i hchannel
        exact clientHasPlaces_eq_true.mp hroom _ hchannel
      · exact .inl rfl
  | streamAck serverId clientId serverGeneration =>
      refine outgoingFits_last ?_ ?_ <;>
        simp only [Manager.handle, Manager.streamAck, Manager.sendToClient]
          at houtcome <;>
        repeat' split at houtcome
      all_goals cases houtcome
      · rename_i hchannel
        exact clientHasPlaces_eq_true.mp hroom _ hchannel
      · exact .inl rfl
  | subcribe key connId connSender excludedServerConns =>
      simp only [hasRoomFor, Bool.and_eq_true, List.all_eq_true] at hroom
      obtain ⟨hsubscriber, hcandidates⟩ := hroom
      obtain ⟨limits, ⟨message, -, hsubcribe⟩ | ⟨selected, hselected,
        hsubcribe⟩⟩ := relay.manager.subcribe_cases settings now
          ⟨key, connId, connSender, excludedServerConns⟩
      · simp only [Manager.handle, hsubcribe] at houtcome ⊢
        cases houtcome
        exact outgoingFits_last hsubscriber (.inl rfl)
      · simp only [Manager.handle, hsubcribe] at houtcome ⊢
        cases houtcome
        rw [hselected]
        refine outgoingFits_selectServer ?_ hsubscriber fun info hinfo => ?_
        · exact (Manager.selectServer_cases ..).1.taskManager
        · have hinfo' := hcandidates info (by
            simpa using List.mem_of_mem_filter hinfo)
          rw [clientHasPlaces_eq_true] at hinfo' ⊢
          intro channel hchannel
          rw [(Manager.selectServer_cases ..).1.taskManager] at hchannel
          exact hinfo' channel hchannel

theorem freshEmpty_deliver {channel : Socket} {connection : Connection}
    {message : ConnTask} (hfresh : FreshEmpty relay)
    (hreceiver : relay.receiver channel = some connection) :
    FreshEmpty (relay.deliver channel connection message) := by
  intro socket after hlookup hinitial
  rcases lookup_deliver hreceiver hlookup with
    ⟨hlookup, -⟩ | ⟨-, hopen, -, rfl⟩
  · exact hfresh socket after hlookup hinitial
  · rw [show connection.handler = .initial from hinitial] at hopen
    cases hopen

theorem fits_settle {sender : Option Socket} {manager : Manager}
    {outcome : Outcome} (hfresh : FreshEmpty relay)
    (hsend : ∀ outgoing, outcome = .send outgoing →
      OutgoingFits { relay with manager } outgoing) :
    Fits (relay.settle sender manager outcome) := by
  cases outcome with
  | done | stop => exact ⟨hfresh, fun _ _ hphase => by cases hphase⟩
  | spawn connId =>
      refine ⟨fun socket connection hlookup hinitial => ?_,
        fun _ _ hphase => by cases hphase⟩
      simp only [settle, setConnection, Table.lookup_insert] at hlookup
      split at hlookup
      · cases hlookup
        rfl
      · exact hfresh socket connection hlookup hinitial
  | trySend channel message =>
      obtain heq | ⟨connection, hreceiver, heq⟩ :=
        settle_trySend relay sender manager channel message
      · rw [heq]
        exact ⟨hfresh, fun _ _ hphase => by cases hphase⟩
      · rw [heq]
        have hsettled : FreshEmpty { relay with manager, phase := .idle } :=
          hfresh
        exact ⟨freshEmpty_deliver hsettled hreceiver,
          fun _ _ hphase => by cases hphase⟩
  | send outgoing =>
      refine ⟨hfresh, fun _ _ hphase => ?_⟩
      cases hphase
      exact hsend outgoing rfl

/-- The sends after a stream request find room as well. -/
theorem outgoingFits_resume (sent : Bool) {outgoing following : Outgoing}
    {after : RelayState}
    (hmanager : after.manager = (relay.manager.resume sent outgoing.resume).1)
    (hplaces : ∀ channel count, relay.hasPlaces channel
      (if sent = true ∧ channel = outgoing.channel then count + 1 else count) =
        true → after.hasPlaces channel count = true)
    (hfits : OutgoingFits relay outgoing)
    (houtcome :
      (relay.manager.resume sent outgoing.resume).2 = .send following) :
    OutgoingFits after following := by
  obtain ⟨-, hrest⟩ := hfits
  cases hresume : outgoing.resume with
  | done =>
      rw [hresume] at houtcome
      cases houtcome
  | subcribeResp connId =>
      rw [hresume] at houtcome
      simp only [Manager.resume] at houtcome
      split at houtcome <;> cases houtcome
  | streamReq subscription candidate rest =>
      rw [hresume] at houtcome hrest hmanager
      obtain ⟨hsubscriber, hcandidates⟩ := hrest
      simp only [Manager.resume] at houtcome hmanager
      cases sent with
      | true =>
          cases houtcome
          refine outgoingFits_last (hplaces _ _ ?_) (.inr ⟨_, rfl⟩)
          simpa [requestPlaces] using hsubscriber
      | false =>
          cases houtcome
          have hdown : ∀ channel count,
              relay.hasPlaces channel count = true →
                after.hasPlaces channel count = true := by
            intro channel count hcount
            exact hplaces channel count (by simpa using hcount)
          have htaskManager : after.manager.taskManager =
              (relay.manager.dropServerConn subscription.key
                candidate.connId).taskManager := by
            rw [hmanager]
            exact (Manager.selectServer_cases ..).1.taskManager
          refine outgoingFits_selectServer htaskManager
            (hdown _ _ (hasPlaces_mono (one_le_requestPlaces _ _) hsubscriber))
            fun info hinfo => ?_
          have hinfo' := hcandidates info hinfo
          rw [clientHasPlaces_eq_true] at hinfo' ⊢
          intro channel hchannel
          refine hdown _ _ (hinfo' channel ?_)
          rw [htaskManager] at hchannel
          simp only [Manager.dropServerConn, TaskManager.getConnSenderChan,
            TaskManager.lookup_deregisterConn] at hchannel
          split at hchannel
          · cases hchannel
          · exact hchannel

/-- A step of a handler takes no place. -/
theorem hasPlaces_moved {socket channel : Socket} {before : Connection}
    {effect : Effect} {buffer : List ConnTask} {count : ℕ}
    (hfresh : FreshEmpty relay)
    (hlookup : relay.connections.lookup socket = some before)
    (hmoves : Moves socket before effect buffer)
    (hmoved : Moved relay socket { before with buffer } effect next)
    (hcount : count ≤ 5) (hplaces : relay.hasPlaces channel count = true) :
    next.hasPlaces channel count = true := by
  rw [hasPlaces_eq_true] at hplaces ⊢
  intro after hafter
  obtain ⟨hafter, hopen⟩ := receiver_eq_some.mp hafter
  rcases hmoved.lookup hafter with ⟨-, hother⟩ | ⟨rfl, handler, hrest, rfl⟩
  · exact hplaces after (receiver_eq_some.mpr ⟨hother, hopen⟩)
  · have hlength : buffer.length ≤ before.buffer.length :=
      hmoves.suffix.length_le
    rcases hmoves.cases hrest with ⟨hinitial, -, -⟩ | ⟨-, hfollows⟩
    · have hempty := hfresh channel before hlookup hinitial
      have hfive := Handler.five_le_capacity hopen
      rw [hempty, List.length_nil] at hlength
      show buffer.length + count ≤ handler.capacity
      exact (show _ ≤ 5 by omega).trans hfive
    · obtain ⟨hbefore, hcapacity⟩ := hfollows.capacity hopen
      have := hplaces before (receiver_eq_some.mpr ⟨hlookup, hbefore⟩)
      show buffer.length + count ≤ handler.capacity
      omega

theorem fits_move {socket : Socket} {before : Connection} {effect : Effect}
    {buffer : List ConnTask} (hfits : Fits relay)
    (hlookup : relay.connections.lookup socket = some before)
    (hmoves : Moves socket before effect buffer)
    (hmoved : Moved relay socket { before with buffer } effect next) :
    Fits next := by
  have hplaces : ∀ channel count, count ≤ 5 →
      relay.hasPlaces channel count = true →
        next.hasPlaces channel count = true := fun channel count =>
    hasPlaces_moved hfits.fresh hlookup hmoves hmoved
  refine ⟨fun other after hafter hinitial => ?_, fun sender outgoing hphase => ?_⟩
  · rcases hmoved.lookup hafter with ⟨-, hother⟩ | ⟨-, handler, hrest, rfl⟩
    · exact hfits.fresh other after hother hinitial
    · rcases hmoves.cases hrest with ⟨-, hstarted, -⟩ | ⟨-, hfollows⟩
      · rw [show handler = .initial from hinitial] at hstarted
        cases hstarted
      · exact absurd hinitial hfollows.started
  · rw [hmoved.phase] at hphase
    obtain ⟨hfirst, hrest⟩ := hfits.pending sender outgoing hphase
    refine ⟨hplaces _ _ (by decide) hfirst, ?_⟩
    cases hresume : outgoing.resume with
    | done | subcribeResp => trivial
    | streamReq subscription candidate rest =>
        rw [hresume] at hrest
        obtain ⟨hsubscriber, hcandidates⟩ := hrest
        have hfive : ∀ first second, requestPlaces first second ≤ 5 :=
          fun first second => (requestPlaces_le_two _ _).trans (by decide)
        refine ⟨hplaces _ _ (hfive _ _) hsubscriber, fun info hinfo => ?_⟩
        have hinfo' := hcandidates info hinfo
        rw [clientHasPlaces_eq_true] at hinfo' ⊢
        intro channel hchannel
        rw [hmoved.manager] at hchannel
        exact hplaces _ _ (hfive _ _) (hinfo' channel hchannel)

/-- What a step keeps, when the channels it addresses have room. -/
theorem fits_step {event : Event} (hfits : Fits relay)
    (hroom : relay.ChannelsHaveRoom event)
    (hstep : Step relay settings event next) : Fits next := by
  cases hstep with
  | arrive | shutdown | flush => exact ⟨hfits.fresh, hfits.pending⟩
  | receive hphase hqueue =>
      refine fits_settle hfits.fresh fun outgoing houtcome => ?_
      exact outgoingFits_handle (hroom _ (by rw [hqueue]; rfl)) houtcome
  | sendClosed hphase hclosed =>
      refine fits_settle hfits.fresh fun following houtcome => ?_
      refine outgoingFits_resume false rfl ?_
        (hfits.pending _ _ hphase) houtcome
      simp only [Bool.false_eq_true, false_and, if_false]
      exact fun _ _ hplaces => hplaces
  | sendOpen hphase hopen hfull =>
      refine fits_settle (freshEmpty_deliver hfits.fresh hopen)
        fun following houtcome => ?_
      refine outgoingFits_resume true rfl ?_
        (hfits.pending _ _ hphase) houtcome
      simp only [true_and]
      exact fun _ _ hplaces => hasPlaces_deliver hopen hplaces
  | move hlookup hmoves hmoved => exact fits_move hfits hlookup hmoves hmoved

end Preservation

/-! ## Runs -/

section Runs

variable {settings : Settings} {relay : RelayState}

theorem fits_init : Fits .init where
  fresh _ _ hlookup := by cases hlookup
  pending _ _ hphase := by cases hphase

theorem fits_of_reachable
    (hreachable : ((relaySystem settings).restrict ChannelsHaveRoom).Reachable
      relay) :
    Fits relay := by
  refine Transition.System.Reachable.invariant ?_ ?_ hreachable
  · rintro _ rfl
    exact fits_init
  · rintro state event next hfits ⟨hroom, hstep⟩
    exact fits_step hfits hroom (step_of_step hstep)

/-- As long as every task finds the channels it addresses with room, the manager
is never stalled and can always go on. -/
theorem managerProgress_of_reachable
    (hreachable : ((relaySystem settings).restrict ChannelsHaveRoom).Reachable
      relay) :
    relay.ManagerProgress settings := by
  have hfits := fits_of_reachable hreachable
  have hnotFull : ∀ sender outgoing connection,
      relay.phase = .sending sender outgoing →
        relay.receiver outgoing.channel = some connection →
          isFull connection = false := by
    intro sender outgoing connection hphase hreceiver
    have hplaces := hasPlaces_eq_true.mp (hfits.pending _ _ hphase).1
      connection hreceiver
    simp only [isFull, decide_eq_false_iff_not, not_le]
    omega
  constructor
  · unfold stalled
    split
    · rename_i hphase
      split
      · rename_i hreceiver
        rw [hnotFull _ _ _ hphase hreceiver, Bool.false_and]
      · rfl
    · rfl
  · intro sender outgoing hphase
    simp only [step, send, hphase]
    split
    · rfl
    · rename_i hreceiver
      rw [if_neg (by simp [hnotFull _ _ _ hphase hreceiver])]
      rfl

/-! ## A provider that stops reading -/

/-- A provider registers and never reads the response. -/
def deafProvider : List Event :=
  connect 0 (adminRequest (.register ['a'] false false none)) ++ [.send, .recv 0 false]

/-- A subscriber is offered the provider, and waits for it. -/
def waitingSubscriber (socket : Socket) : List Event :=
  connect socket (adminRequest (.subcribe ['a'])) ++ [.send, .send]

/-- As many subscribers as the provider's channel has places, and one more. -/
def stallHistory : List Event :=
  deafProvider ++
    (List.range 128).flatMap (fun index => waitingSubscriber (index + 1)) ++
      connect 129 (adminRequest (.subcribe ['a']))

/-- A provider that stops reading stops the manager. -/
theorem stallHistory_stalls :
    ∃ relay, (relaySystem Settings.default).Reachable relay ∧
      relay.stalled = true := by
  have hrun : (stallHistory.foldlM (RelayState.step Settings.default)
      RelayState.init).map stalled = some true := by
    decide +kernel
  obtain ⟨relay, hfold, hstalled⟩ := Option.map_eq_some_iff.mp hrun
  exact ⟨relay, Transition.System.reachable_of_foldlM (fun _ _ _ h => h) rfl
    hfold, hstalled⟩

/-- With a single subscriber the channels have room, and its stream is
pending. -/
theorem managerProgress_one_subscriber :
    ∃ relay : RelayState, relay.ManagerProgress Settings.default ∧
      relay.manager.pendingStreams.keys = [.ofNat 1] := by
  have hrun : ((deafProvider ++ waitingSubscriber 1).foldlM (Transition.System.checked
      ChannelsHaveRoom (RelayState.step Settings.default))
        RelayState.init).map
      (fun relay => relay.manager.pendingStreams.keys) =
        some [RemoteConnId.ofNat 1] := by
    decide +kernel
  obtain ⟨relay, hfold, hkeys⟩ := Option.map_eq_some_iff.mp hrun
  exact ⟨relay, managerProgress_of_reachable
    (Transition.System.reachable_of_foldlM Transition.System.checked_sound rfl
      hfold), hkeys⟩

end Runs

end PbMapper.Relay

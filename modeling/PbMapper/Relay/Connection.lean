import PbMapper.Foundation.Fallible
import PbMapper.Protocol.FirstFlight
import PbMapper.Relay.Task

/-!
# Connection handlers

One accepted connection from its first frame to its end: authentication and
dispatch, the provider's control connection with its reader and its writer, the
subscriber's `get_server_stream` loop, status requests and data streams.  A
handler is a small state machine; what a step wants from the manager's queue is
its `Effect`.
-/

namespace PbMapper.Relay

open Auth

/-! ## First frames -/

inductive PbConnRequest where
  | register (key : List Char) (needCodec isDatagram : Bool)
      (protocolVersion : Option ℕ)
  | subcribe (key : List Char)
  | stream (key : List Char) (dstId : RemoteConnId) (serverGeneration : ℕ)
  | status (status : PbConnStatusReq)
  | admin

/-- An authenticated first frame; the scoped request kinds carry a namespace,
and registrations the force flag. -/
structure InitRequest where
  context : AuthContext
  protocol : Protocol.HeaderProtocol
  requestedNamespace : Option UInt64
  forceNamespace : Bool
  request : PbConnRequest

/-! ## Handler states -/

structure ServerRegistration where
  service : ScopedService
  needCodec : Bool
  isDatagram : Bool
  protocolVersion : ℕ

/-- What a control frame tells the manager. -/
inductive ServerReport where
  | activity
  | streamAck (clientId : RemoteConnId) (serverGeneration : ℕ)

/-- The reader half of a control connection. -/
inductive ServerReader where
  | reading
  /-- A report waits for room in the manager's queue. -/
  | forwarding (report : ServerReport)

/-- The writer half of a control connection. -/
inductive ServerWriter where
  | receiving
  /-- A frame waits for the socket. -/
  | writing
deriving DecidableEq

inductive ServerStage where
  | registering
  | awaiting
  /-- The refusal waits for the socket. -/
  | rejecting
  | serving (generation : ℕ) (reader : ServerReader) (writer : ServerWriter)
      (pongs : ℕ)

/-- The provider a `SubcribeResp` names. -/
structure Offer where
  serverConnId : RemoteConnId
  serverGeneration : ℕ
  needCodec : Bool
  isDatagram : Bool

inductive ClientStage where
  | subscribing
  | awaitingServer
  | awaitingAck (offer : Offer)
  | awaitingStream (offer : Offer)
  | retiring (offer : Offer) (reason : RetireReason)
  /-- The error response waits for the socket. -/
  | refusing
  /-- The subscribe response waits for the socket. -/
  | responding (serverId : RemoteConnId) (stream : DataStream)
  /-- `get_server_stream` has returned the stream. -/
  | forwarding (serverId : RemoteConnId) (stream : DataStream)

inductive StatusStage where
  | requesting
  | awaiting
  | responding

/-- `ServerConnGuard`, or `ClientConnGuard` and `StatusConnGuard`. -/
inductive Guard where
  | server (key : ImutableKey)
  | client (serverId : Option RemoteConnId)

/-- `deregister_task` of the guards. -/
def Guard.deregisterTask (connId : RemoteConnId) : Guard → ManagerTask
  | .server key => .deRegisterServerConn key connId
  | .client serverId => .deRegisterClientConn serverId connId

inductive Handler where
  | initial
  | server (registration : ServerRegistration) (stage : ServerStage)
  | client (service : ScopedService)
      (excludedServerConns : List (RemoteConnId × ℕ)) (stage : ClientStage)
  | stream (service : ScopedService) (dstId : RemoteConnId)
      (serverGeneration : ℕ)
  | status (status : PbConnStatusReq) (nameSpace : UInt64) (stage : StatusStage)
  /-- Administrator requests do not touch the routing state. -/
  | admin
  /-- `guard.deregister().await`: only the deregistration is left to send. -/
  | leaving (guard : Guard)
  /-- The handler has ended, but the writer it spawned has not. -/
  | detached (writer : ServerWriter) (pongs : ℕ)

/-- A connection: its identity, the handler and the buffer of its channel. -/
structure Connection where
  connId : RemoteConnId
  handler : Handler
  buffer : List ConnTask

/-- The guard is not a provider's. -/
def Guard.isClient : Guard → Bool
  | .server _ => false
  | .client _ => true

namespace Handler

/-- `bounded_async(..)` of the three handlers that have a channel. -/
def capacity : Handler → ℕ
  | .server _ _ | .detached _ _ => 32 * 4
  | .client _ _ _ => 32
  | .status _ _ _ => 5
  | _ => 0

/-- The receiver of the channel is alive. -/
def isOpen : Handler → Bool
  | .server _ _ | .detached _ _ => true
  | .client _ _ (.forwarding _ _) => false
  | .client _ _ _ => true
  | .status _ _ _ => true
  | _ => false

/-- The task that reads the channel waits for its own peer's socket. -/
def waitsOnSocket : Handler → Bool
  | .server _ .rejecting => true
  | .server _ (.serving _ _ .writing _) => true
  | .detached .writing _ => true
  | .client _ _ .refusing => true
  | .client _ _ (.responding _ _) => true
  | .status _ _ .responding => true
  | _ => false

/-- The task that reads the channel waits for room in the manager's queue. -/
def waitsOnManager : Handler → Bool
  | .server _ .registering => true
  | .client _ _ .subscribing => true
  | .client _ _ (.retiring _ _) => true
  | .status _ _ .requesting => true
  | _ => false

/-- The connection task is running; a detached writer is not part of it. -/
def isRunning : Handler → Bool
  | .detached _ _ => false
  | _ => true

end Handler

/-! ## Steps -/

inductive ServerFrame where
  | ping
  | streamAck (clientId : RemoteConnId) (serverGeneration : ℕ)
  | malformed

/-- What happens to a connection next, apart from messages of the manager. -/
inductive ConnEvent where
  /-- The first frame fails, or is refused. -/
  | fail
  | request (init : InitRequest)
  /-- The queue takes the task the handler is sending. -/
  | post
  /-- A timed wait for a message runs out. -/
  | timeout
  /-- The socket takes the frame that waits for it. -/
  | written
  /-- A control frame arrives. -/
  | frame (frame : ServerFrame)
  /-- The writer takes a pong. -/
  | pong
  /-- The socket fails or ends, an idle timeout fires, or forwarding ends. -/
  | close
  /-- The credential is cancelled and the handler dropped. -/
  | cancel

/-- How a step goes on, and what it sends. -/
inductive Effect where
  | stay (handler : Handler)
  /-- The task joins the queue, which must have room. -/
  | post (task : ManagerTask) (handler : Handler)
  /-- The handler ends. -/
  | leave
  /-- The task joins the queue, which must have room, and the handler ends. -/
  | postLeave (task : ManagerTask)
  /-- The handler ends, and its guard is dropped: the deregistration joins the
  queue, or is sent later by a task of its own.  A writer may stay. -/
  | dropGuard (guard : Guard) (writer : Option (ServerWriter × ℕ))

namespace Effect

/-- The state after the step, if there is one. -/
def rest : Effect → Option Handler
  | .stay handler | .post _ handler => some handler
  | .leave | .postLeave _ => none
  | .dropGuard _ writer =>
      writer.map fun (writer, pongs) => .detached writer pongs

/-- The task the step sends. -/
def task (connId : RemoteConnId) : Effect → Option ManagerTask
  | .post task _ | .postLeave task => some task
  | .dropGuard guard _ => some (guard.deregisterTask connId)
  | .stay _ | .leave => none

/-- The step waits for room in the queue. -/
def awaitsRoom : Effect → Bool
  | .post _ _ | .postLeave _ => true
  | _ => false

end Effect

/-! ### Dispatch -/

/-- The dispatch of `handle_conn`. -/
def dispatch (init : InitRequest) : Except AuthFailure Handler := do
  let isRegister := match init.request with
    | .register .. => true
    | _ => false
  let nameSpace ← resolveNamespace init.context init.requestedNamespace
    init.forceNamespace isRegister
  match init.request with
  | .register key needCodec isDatagram protocolVersion =>
      let service ← scopeServiceOrReject init.context nameSpace key
      pure (.server ⟨service, needCodec, isDatagram, protocolVersion.getD 1⟩
        .registering)
  | .subcribe key =>
      let service ← scopeServiceOrReject init.context nameSpace key
      pure (.client service [] .subscribing)
  | .stream key dstId serverGeneration =>
      let service ← scopeServiceOrReject init.context nameSpace key
      pure (.stream service dstId serverGeneration)
  | .status status => pure (.status status nameSpace .requesting)
  | .admin =>
      if !init.context.isAdmin then
        .error ⟨"admin_permission_required",
          "administrator credential is required for this operation", false⟩
      else if init.protocol ≠ .v2 then
        .error ⟨"admin_protocol_v2_required",
          "administrator operations require protocol v2", false⟩
      else pure .admin

/-- The frame is refused with an error response, or starts a handler. -/
def start (init : InitRequest) : Effect :=
  match dispatch init with
  | .ok handler => .stay handler
  | .error _ => .leave

section Steps

variable (socket : Socket) (connId : RemoteConnId)

/-! ### The provider -/

/-- The task a control frame is passed on with. -/
def reportTask (registration : ServerRegistration) : ServerReport → ManagerTask
  | .activity => .serverConnActivity registration.service.key connId
  | .streamAck clientId serverGeneration =>
      .streamAck connId clientId serverGeneration

/-- A pong follows the report of a ping. -/
def pongsAfter (pongs : ℕ) : ServerReport → ℕ
  | .activity => pongs + 1
  | .streamAck _ _ => pongs

/-- A control frame, `handle_control_message`. -/
def receiveFrame : ServerFrame → ServerReader
  | .ping => .forwarding .activity
  | .streamAck clientId serverGeneration =>
      .forwarding (.streamAck clientId serverGeneration)
  | .malformed => .reading

/-- `handle_server_conn`. -/
def serverStep (registration : ServerRegistration) :
    ServerStage → ConnEvent → Option Effect
  | .registering, .post =>
      some (.post
        (.register registration.service.key connId registration.needCodec
          registration.isDatagram registration.protocolVersion socket)
        (.server registration .awaiting))
  -- The guard does not exist yet.
  | .registering, .cancel => some .leave
  | .rejecting, .written | .rejecting, .close =>
      some (.stay (.leaving (.server registration.service.key)))
  | .serving generation .reading writer pongs, .frame frame =>
      some (.stay (.server registration
        (.serving generation (receiveFrame frame) writer pongs)))
  | .serving generation (.forwarding report) writer pongs, .post =>
      some (.post (reportTask connId registration report)
        (.server registration (.serving generation .reading writer
          (pongsAfter pongs report))))
  | .serving generation reader .receiving (pongs + 1), .pong =>
      some (.stay (.server registration
        (.serving generation reader .writing pongs)))
  | .serving generation reader .writing pongs, .written =>
      some (.stay (.server registration
        (.serving generation reader .receiving pongs)))
  | .serving _ _ _ _, .close =>
      some (.stay (.leaving (.server registration.service.key)))
  -- The dropped `JoinHandle` detaches the writer.
  | .serving _ _ writer pongs, .cancel =>
      some (.dropGuard (.server registration.service.key)
        (some (writer, pongs)))
  | .awaiting, .cancel | .rejecting, .cancel =>
      some (.dropGuard (.server registration.service.key) none)
  | _, _ => none

/-- The answer to a `Register`. -/
def receiveRegistered (registration : ServerRegistration) : ConnTask → Handler
  | .registerResp generation _ _ =>
      .server registration (.serving generation .reading .writing 0)
  | .registerFailed _ _ _ => .server registration .rejecting
  | _ => .leaving (.server registration.service.key)

/-- A message to the writer of a control connection. -/
def receiveControl (registration : ServerRegistration) (generation : ℕ)
    (reader : ServerReader) (pongs : ℕ) : ConnTask → Handler
  | .retire _ => .leaving (.server registration.service.key)
  | .streamReq _ _ =>
      .server registration (.serving generation reader .writing pongs)
  | _ => .server registration (.serving generation reader .receiving pongs)

/-- The writer of a provider whose handler was dropped. -/
def detachedStep : ServerWriter → ℕ → ConnEvent → Option Effect
  | .receiving, pongs + 1, .pong => some (.stay (.detached .writing pongs))
  | .writing, pongs, .written => some (.stay (.detached .receiving pongs))
  | _, _, .close => some .leave
  | _, _, _ => none

def receiveDetached (pongs : ℕ) : ConnTask → Effect
  | .retire _ => .leave
  | .streamReq _ _ => .stay (.detached .writing pongs)
  | _ => .stay (.detached .receiving pongs)

/-! ### The subscriber -/

/-- The next attempt, with the provider of this one excluded. -/
def retry (service : ScopedService)
    (excludedServerConns : List (RemoteConnId × ℕ)) (offer : Offer) : Handler :=
  .client service (excludedServerConns ++
    [(offer.serverConnId, offer.serverGeneration)]) .subscribing

/-- The server id the guard of a subscriber holds. -/
def guardServerId : ClientStage → Option RemoteConnId
  | .forwarding serverId _ => some serverId
  | _ => none

/-- `handle_client_conn` and `get_server_stream`. -/
def clientStep (service : ScopedService)
    (excludedServerConns : List (RemoteConnId × ℕ)) :
    ClientStage → ConnEvent → Option Effect
  | .subscribing, .post =>
      some (.post (.subcribe service.key connId socket excludedServerConns)
        (.client service excludedServerConns .awaitingServer))
  | .awaitingServer, .timeout =>
      some (.stay (.leaving (.client none)))
  | .awaitingAck offer, .timeout =>
      some (.stay (.client service excludedServerConns
        (.retiring offer (.streamAckTimeout connId))))
  | .awaitingStream offer, .timeout =>
      some (.stay (.client service excludedServerConns
        (.retiring offer (.streamReadyTimeout connId))))
  | .retiring offer reason, .post =>
      some (.post (.retireServerConn service.key offer.serverConnId reason)
        (retry service excludedServerConns offer))
  | .refusing, .written | .refusing, .close | .responding _ _, .close =>
      some (.stay (.leaving (.client none)))
  | .responding serverId stream, .written =>
      some (.stay (.client service excludedServerConns
        (.forwarding serverId stream)))
  | .forwarding serverId _, .close =>
      some (.stay (.leaving (.client (some serverId))))
  | stage, .cancel =>
      some (.dropGuard (.client (guardServerId stage)) none)
  | _, _ => none

/-- The answer to a `Subcribe`; `late` tells that the recovery deadline has
passed. -/
def receiveServer (service : ScopedService)
    (excludedServerConns : List (RemoteConnId × ℕ)) (late : Bool) :
    ConnTask → Handler
  | .subcribeResp serverConnId serverGeneration needCodec isDatagram =>
      .client service excludedServerConns (.awaitingAck
        ⟨serverConnId, serverGeneration, needCodec, isDatagram⟩)
  | .subcribeFailed _ _ _ => .client service excludedServerConns .refusing
  | .subcribeRetry _ =>
      if late then .leaving (.client none)
      else .client service excludedServerConns .subscribing
  | _ => .leaving (.client none)

/-- The first message after a `SubcribeResp`. -/
def receiveAck (service : ScopedService)
    (excludedServerConns : List (RemoteConnId × ℕ)) (offer : Offer) :
    ConnTask → Handler
  | .streamResp serverId serverGeneration stream =>
      if serverGeneration = offer.serverGeneration then
        .client service excludedServerConns (.responding serverId stream)
      else retry service excludedServerConns offer
  | .streamAck serverId serverGeneration =>
      if serverId = offer.serverConnId ∧
          serverGeneration = offer.serverGeneration then
        .client service excludedServerConns (.awaitingStream offer)
      else retry service excludedServerConns offer
  | _ => retry service excludedServerConns offer

/-- The message after an acknowledgement. -/
def receiveStream (service : ScopedService)
    (excludedServerConns : List (RemoteConnId × ℕ)) (offer : Offer) :
    ConnTask → Handler
  | .streamResp serverId serverGeneration stream =>
      if serverGeneration = offer.serverGeneration then
        .client service excludedServerConns (.responding serverId stream)
      else retry service excludedServerConns offer
  | _ => .leaving (.client none)

/-! ### Status requests -/

/-- `handle_show_status`. -/
def statusStep (status : PbConnStatusReq) (nameSpace : UInt64) :
    StatusStage → ConnEvent → Option Effect
  | .requesting, .post =>
      some (.post (.status socket status nameSpace connId)
        (.status status nameSpace .awaiting))
  | .responding, .written | .responding, .close =>
      some (.stay (.leaving (.client none)))
  | _, .cancel => some (.dropGuard (.client none) none)
  | _, _ => none

def receiveStatus (status : PbConnStatusReq) (nameSpace : UInt64) :
    ConnTask → Handler
  | .statusResp _ => .status status nameSpace .responding
  | _ => .leaving (.client none)

/-! ### All handlers -/

/-- A step of a handler. -/
def Handler.step : Handler → ConnEvent → Option Effect
  | .initial, .fail => some .leave
  | .initial, .request init => some (start init)
  | .server registration stage, event =>
      serverStep socket connId registration stage event
  | .client service excludedServerConns stage, event =>
      clientStep socket connId service excludedServerConns stage event
  | .stream service dstId serverGeneration, .post =>
      some (.postLeave (.stream service.key ⟨socket, service⟩ connId dstId
        serverGeneration))
  | .status request nameSpace stage, event =>
      statusStep socket connId request nameSpace stage event
  | .admin, .close => some .leave
  | .leaving guard, .post => some (.postLeave (guard.deregisterTask connId))
  | .leaving guard, .cancel => some (.dropGuard guard none)
  | .detached writer pongs, event => detachedStep writer pongs event
  | _, _ => none

/-- The next message of its channel, where the handler waits for one. -/
def Handler.receive (late : Bool) (message : ConnTask) :
    Handler → Option Effect
  | .server registration .awaiting =>
      some (.stay (receiveRegistered registration message))
  | .server registration (.serving generation reader .receiving pongs) =>
      some (.stay
        (receiveControl registration generation reader pongs message))
  | .client service excludedServerConns .awaitingServer =>
      some (.stay
        (receiveServer service excludedServerConns late message))
  | .client service excludedServerConns (.awaitingAck offer) =>
      some (.stay (receiveAck service excludedServerConns offer message))
  | .client service excludedServerConns (.awaitingStream offer) =>
      some (.stay
        (receiveStream service excludedServerConns offer message))
  | .status request nameSpace .awaiting =>
      some (.stay (receiveStatus request nameSpace message))
  | .detached .receiving pongs => some (receiveDetached pongs message)
  | _ => none

end Steps

/-! ### The first step -/

/-- The handlers a first frame starts. -/
inductive Handler.Started : Handler → Prop
  | server (registration : ServerRegistration) :
      Started (.server registration .registering)
  | client (service : ScopedService) : Started (.client service [] .subscribing)
  | stream (service : ScopedService) (dstId : RemoteConnId)
      (serverGeneration : ℕ) :
      Started (.stream service dstId serverGeneration)
  | status (status : PbConnStatusReq) (nameSpace : UInt64) :
      Started (.status status nameSpace .requesting)
  | admin : Started .admin

theorem started_of_dispatch {init : InitRequest} {handler : Handler}
    (hdispatch : dispatch init = .ok handler) : handler.Started := by
  unfold dispatch at hdispatch
  obtain ⟨nameSpace, -, hrequest⟩ := Fallible.bind_eq_ok.mp hdispatch
  split at hrequest
  · obtain ⟨service, -, hpure⟩ := Fallible.bind_eq_ok.mp hrequest
    cases hpure
    exact .server _
  · obtain ⟨service, -, hpure⟩ := Fallible.bind_eq_ok.mp hrequest
    cases hpure
    exact .client _
  · obtain ⟨service, -, hpure⟩ := Fallible.bind_eq_ok.mp hrequest
    cases hpure
    exact .stream _ _ _
  · cases hrequest
    exact .status _ _
  · split at hrequest
    · cases hrequest
    · split at hrequest
      · cases hrequest
      · cases hrequest
        exact .admin

/-- An open handler has a channel with room for a few messages. -/
theorem Handler.five_le_capacity {handler : Handler}
    (hopen : handler.isOpen = true) : 5 ≤ handler.capacity := by
  cases handler <;> simp_all [Handler.isOpen, Handler.capacity]

/-! ### What a step keeps -/

namespace Handler

/-- The service a subscriber asks for. -/
def clientKey : Handler → Option ImutableKey
  | .client service _ _ => some service.key
  | _ => none

/-- The service a provider registers, or registered. -/
def providerKey : Handler → Option ImutableKey
  | .server registration _ => some registration.service.key
  | .leaving (.server key) => some key
  | _ => none

end Handler

namespace Handler

/-- What a started handler keeps in a step: it gains no channel and no other
capacity or service. -/
structure Follows (before after : Handler) : Prop where
  started : after ≠ .initial
  clientKey : ∀ key ∈ after.clientKey, before.clientKey = some key
  providerKey : after.isRunning = true →
    after.providerKey = before.providerKey
  capacity : after.isOpen = true →
    before.isOpen = true ∧ after.capacity = before.capacity

variable {socket : Socket} {connId : RemoteConnId} {event : ConnEvent}
  {effect : Effect} {before after : Handler}

/-- The first step starts a handler. -/
theorem started_of_step (hinitial : before = .initial)
    (hstep : before.step socket connId event = some effect)
    (hrest : effect.rest = some after) : after.Started := by
  subst hinitial
  cases event <;> cases hstep
  · cases hrest
  · rename_i init
    unfold start at hrest
    split at hrest <;> cases hrest
    rename_i hdispatch
    exact started_of_dispatch hdispatch

theorem step_follows (hinitial : before ≠ .initial)
    (hstep : before.step socket connId event = some effect)
    (hrest : effect.rest = some after) : before.Follows after := by
  cases before with
  | initial => exact absurd rfl hinitial
  | server registration stage =>
      simp only [step] at hstep
      unfold serverStep at hstep
      split at hstep <;> cases hstep <;> cases hrest <;>
        constructor <;>
        simp [Handler.clientKey, Handler.providerKey, isOpen, Handler.capacity,
          isRunning]
  | client service excluded stage =>
      simp only [step] at hstep
      unfold clientStep at hstep
      split at hstep <;> cases hstep <;> cases hrest <;>
        constructor <;>
        simp [Handler.clientKey, Handler.providerKey, isOpen, Handler.capacity,
          isRunning, retry]
  | status request nameSpace stage =>
      simp only [step] at hstep
      unfold statusStep at hstep
      split at hstep <;> cases hstep <;> cases hrest <;>
        constructor <;>
        simp [Handler.clientKey, Handler.providerKey, isOpen, Handler.capacity,
          isRunning]
  | detached writer pongs =>
      simp only [step] at hstep
      unfold detachedStep at hstep
      split at hstep <;> cases hstep <;> cases hrest <;>
        constructor <;>
        simp [Handler.clientKey, Handler.providerKey, isOpen, Handler.capacity,
          isRunning]
  | stream service dstId serverGeneration =>
      cases event <;> cases hstep
      cases hrest
  | admin =>
      cases event <;> cases hstep
      cases hrest
  | leaving guard => cases event <;> cases hstep <;> cases hrest

theorem receive_follows {late : Bool} {message : ConnTask}
    (hreceive : before.receive late message = some effect)
    (hrest : effect.rest = some after) : before.Follows after := by
  unfold receive at hreceive
  split at hreceive <;> cases hreceive
  case h_7 =>
    cases message <;> cases hrest <;>
      constructor <;>
      simp [Handler.clientKey, Handler.providerKey, isOpen, Handler.capacity,
        isRunning]
  all_goals
    cases hrest
    cases message <;>
      simp only [receiveRegistered, receiveControl, receiveServer, receiveAck,
        receiveStream, receiveStatus, retry] <;>
      repeat' split
  all_goals
    constructor <;>
      simp [Handler.clientKey, Handler.providerKey, isOpen, Handler.capacity,
        isRunning]

theorem ne_initial_of_receive {late : Bool} {message : ConnTask}
    (hreceive : before.receive late message = some effect) :
    before ≠ .initial := by
  rintro rfl
  cases hreceive

end Handler

/-! ### What a step sends -/

/-- The guard a handler holds, once it has one. -/
def Handler.guard : Handler → Option Guard
  | .server _ .registering => none
  | .server registration _ => some (.server registration.service.key)
  | .client _ _ stage => some (.client (guardServerId stage))
  | .status _ _ _ => some (.client none)
  | .leaving guard => some guard
  | _ => none

/-- The tasks a handler sends, and what it becomes. -/
inductive Handler.Sends (socket : Socket) (connId : RemoteConnId) :
    Handler → ManagerTask → Option Handler → Prop
  | register (registration : ServerRegistration) :
      Sends socket connId (.server registration .registering)
        (.register registration.service.key connId registration.needCodec
          registration.isDatagram registration.protocolVersion socket)
        (some (.server registration .awaiting))
  | report (registration : ServerRegistration) (report : ServerReport)
      {stage after : ServerStage} :
      Sends socket connId (.server registration stage)
        (reportTask connId registration report)
        (some (.server registration after))
  | subcribe (service : ScopedService)
      (excluded : List (RemoteConnId × ℕ)) :
      Sends socket connId (.client service excluded .subscribing)
        (.subcribe service.key connId socket excluded)
        (some (.client service excluded .awaitingServer))
  | retire (service : ScopedService) (excluded : List (RemoteConnId × ℕ))
      (offer : Offer) (reason : RetireReason) :
      Sends socket connId (.client service excluded (.retiring offer reason))
        (.retireServerConn service.key offer.serverConnId reason)
        (some (retry service excluded offer))
  | stream (service : ScopedService) (dstId : RemoteConnId)
      (serverGeneration : ℕ) :
      Sends socket connId (.stream service dstId serverGeneration)
        (.stream service.key ⟨socket, service⟩ connId dstId serverGeneration)
        none
  | status (request : PbConnStatusReq) (nameSpace : UInt64) :
      Sends socket connId (.status request nameSpace .requesting)
        (.status socket request nameSpace connId)
        (some (.status request nameSpace .awaiting))
  | deregister {before : Handler} (guard : Guard) {rest : Option Handler}
      (hguard : before.guard = some guard)
      (hrest : ∀ handler ∈ rest, ∃ writer pongs,
        handler = .detached writer pongs) :
      Sends socket connId before (guard.deregisterTask connId) rest

namespace Handler

variable {socket : Socket} {connId : RemoteConnId} {event : ConnEvent}
  {effect : Effect} {before : Handler} {task : ManagerTask}

theorem step_sends (hstep : before.step socket connId event = some effect)
    (htask : effect.task connId = some task) :
    before.Sends socket connId task effect.rest := by
  cases before with
  | initial =>
      cases event <;> cases hstep
      · cases htask
      · rename_i init
        unfold start at htask
        split at htask <;> cases htask
  | server registration stage =>
      simp only [step] at hstep
      unfold serverStep at hstep
      split at hstep <;> cases hstep <;> cases htask
      case h_1 => exact .register _
      case h_6 => exact .report _ _
      all_goals
        refine .deregister (.server _) rfl ?_
        simp [Effect.rest]
  | client service excluded stage =>
      simp only [step] at hstep
      unfold clientStep at hstep
      split at hstep <;> cases hstep <;> cases htask
      case h_1 => exact .subcribe _ _
      case h_5 => exact .retire _ _ _ _
      refine .deregister (.client _) rfl ?_
      simp [Effect.rest]
  | status request nameSpace stage =>
      simp only [step] at hstep
      unfold statusStep at hstep
      split at hstep <;> cases hstep <;> cases htask
      case h_1 => exact .status _ _
      refine .deregister (.client _) rfl ?_
      simp [Effect.rest]
  | detached writer pongs =>
      simp only [step] at hstep
      unfold detachedStep at hstep
      split at hstep <;> cases hstep <;> cases htask
  | stream service dstId serverGeneration =>
      cases event <;> cases hstep
      cases htask
      exact .stream _ _ _
  | admin =>
      cases event <;> cases hstep
      cases htask
  | leaving guard =>
      cases event <;> cases hstep <;> cases htask <;>
        exact .deregister guard rfl (by simp [Effect.rest])

/-- A guard is kept, or its deregistration is sent. -/
theorem step_guard {guard : Guard} (hguard : before.guard = some guard)
    (hstep : before.step socket connId event = some effect) :
    (∃ after kept, effect.rest = some after ∧ after.guard = some kept ∧
        kept.isClient = guard.isClient) ∨
      ∃ last : Guard, effect.task connId = some (last.deregisterTask connId) ∧
        last.isClient = guard.isClient := by
  cases before with
  | initial | stream | admin | detached => cases hguard
  | server registration stage =>
      simp only [step] at hstep
      unfold serverStep at hstep
      split at hstep <;> cases hstep <;> cases hguard <;>
        first
        | exact .inl ⟨_, _, rfl, rfl, rfl⟩
        | exact .inr ⟨.server _, rfl, rfl⟩
  | client service excluded stage =>
      simp only [step] at hstep
      unfold clientStep at hstep
      split at hstep <;> cases hstep <;> cases hguard <;>
        first
        | exact .inl ⟨_, _, rfl, rfl, rfl⟩
        | exact .inr ⟨.client _, rfl, rfl⟩
  | status request nameSpace stage =>
      simp only [step] at hstep
      unfold statusStep at hstep
      split at hstep <;> cases hstep <;> cases hguard <;>
        first
        | exact .inl ⟨_, _, rfl, rfl, rfl⟩
        | exact .inr ⟨.client _, rfl, rfl⟩
  | leaving held =>
      cases hguard
      cases event <;> cases hstep <;> exact .inr ⟨guard, rfl, rfl⟩

/-- Taking a message keeps the guard. -/
theorem receive_guard {guard : Guard} {late : Bool} {message : ConnTask}
    (hguard : before.guard = some guard)
    (hreceive : before.receive late message = some effect) :
    ∃ after kept, effect.rest = some after ∧ after.guard = some kept ∧
      kept.isClient = guard.isClient := by
  unfold receive at hreceive
  split at hreceive <;> cases hreceive <;> cases hguard <;>
    cases message <;>
    simp only [receiveRegistered, receiveControl, receiveServer, receiveAck,
      receiveStream, receiveStatus, retry] <;>
    repeat' split
  all_goals exact ⟨_, _, rfl, rfl, rfl⟩

/-- Taking a message sends nothing. -/
theorem receive_task {late : Bool} {message : ConnTask}
    (hreceive : before.receive late message = some effect) :
    effect.task connId = none := by
  unfold receive at hreceive
  split at hreceive <;> cases hreceive
  case h_7 => cases message <;> rfl
  all_goals rfl

end Handler

end PbMapper.Relay

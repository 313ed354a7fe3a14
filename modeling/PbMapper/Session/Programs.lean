import PbMapper.Client.ControlLoop
import PbMapper.Foundation.Journal
import PbMapper.Protocol.V2Stream
import PbMapper.Relay.Connection

/-!
# What is written over a session

The programs of both ends of a connection, as far as they write over its header
session: the server's `handle_conn` with all its handlers, and the requests of the
clients.  Whatever a program waits for is answered from a list, in any way; where
the list ends, the program is dropped at that wait.
-/

namespace PbMapper.Session

open PbMapper.Core MachineWord Protocol
open Auth
open Relay hiding Effect

/-! ## Messages -/

/-- The text of an administrator's answer. -/
abbrev AdminResponse := String

inductive PbConnResponse where
  | register (connId : RemoteConnId)
  | registerV2 (connId : RemoteConnId) (generation leaseTtlMs : ℕ)
  | subcribe (codecKey : Option AesKeyType) (clientId serverId : RemoteConnId)
  | stream (codecKey : Option AesKeyType)
  | status (response : PbConnStatusResp)
  | admin (response : AdminResponse)
  | error (code message : String) (retryable : Bool) (serverTime : ℕ)

inductive LocalServer where
  | stream (clientId : RemoteConnId) (serverGeneration : ℕ)

inductive PbServerRequest where
  | ping
  | pingV2 (seq : ℕ)
  | streamAck (clientId serverGeneration : ℕ)

/-- `MessageSerializer::encode` of the messages that are written. -/
structure MessageSerializer where
  response : PbConnResponse → Except String (List UInt8)
  localServer : LocalServer → Except String (List UInt8)
  serverRequest : PbServerRequest → Except String (List UInt8)

/-! ## Programs -/

/-- The selectors of the errors a program ends with. -/
inductive ConnError where
  | taskCenterInitRequestTimeout
  | taskCenterSendStreamRespToManager
  | serverConnSendRegister
  | serverConnRecvServerRegisteredResp
  | serverConnRegisteredRespNotMatch
  | serverConnCreateHeaderTool
  | serverConnEncodeRegisterResp
  | serverConnWriteRegisteredOk
  | serverConnRecvConnTask
  | serverConnWritePongResp
  | serverConnDecodeStreamRequest
  | serverConnWriteStreamRequest
  | clientConnSendSubcribe
  | clientConnRecvSubcribeResp
  | clientConnRecvSubcribeRespTimeout
  | clientConnSubcribeFailed
  | clientConnSubcribeRespNotMatch
  | clientConnRecvStream
  | clientConnStreamRespNotMatch
  | clientConnCreateHeaderTool
  | clientConnEncodeSubcribeResp
  | clientConnWriteSubcribeResp
  | clientConnEncodeStreamResp
  | clientConnWriteStreamResp
  | clientConnAuthInactive
  | statusSendManagerTask
  | statusRecvConnTask
  | statusConnTaskNotMatch
  | statusEncodeResp
  | statusCreateHeaderTool
  | statusWriteResp
  | adminOperation
  | protocol
  | writeInitial
  | registerRespNotMatch
  | encodePingMsg
  | writePingMsg
  | encodeStreamAckMsg
  | writeStreamAckMsg
deriving DecidableEq

inductive Interruption where
  | failed (error : ConnError)
  /-- The program is dropped at a wait. -/
  | stopped
deriving DecidableEq

/-- How a wait for the next message of a channel ends. -/
inductive Arrival where
  | elapsed
  | closed
  | message (task : ConnTask)

/-- `LocalControlWrite`. -/
inductive LocalControlWrite where
  | ping (seq : ℕ)
  | streamAck (clientId serverGeneration : ℕ)

/-- An answer to a wait, whichever wait comes next. -/
structure Answer where
  arrival : Arrival
  /-- A write to the socket. -/
  wrote : Except String Unit
  /-- The manager's channel takes a task. -/
  sent : Bool
  /-- The cancellation token, or the claim of a mutation. -/
  permitted : Except AuthFailure Unit
  executed : Except AuthFailure AdminResponse
  /-- The recovery deadline has passed. -/
  late : Bool
  genRandomKey : AesKeyType
  serverTime : ℕ
  /-- Which arm of the control writer's `select!` is ready. -/
  takesCommand : Bool
  /-- The pong that the reader of a control connection asks for, if it goes on. -/
  pong : Option (List UInt8)
  /-- The version the server registered the client with, if it did. -/
  registered : Option ℕ
  control : Option LocalControlWrite

inductive SessionEvent where
  /-- `response_writer` of the server's end. -/
  | created
  /-- A message is sealed by a writer in this state. -/
  | sealed (writer : V2MessageWriter) (message : List UInt8)
  /-- The session is sent to the manager with its stream. -/
  | handedOver
  /-- The session is taken from a channel with its stream. -/
  | received

/-- What happens to a session; it is named by the socket of its connection. -/
abbrev SessionEntry := Socket × SessionEvent

structure Desk where
  answers : List Answer
  log : List SessionEntry

abbrev HandlerM := Effect Desk Interruption

def ask {Value : Type} (read : Answer → Value) : HandlerM Value :=
  .of fun desk =>
    match desk.answers with
    | [] => (.error .stopped, desk)
    | answer :: answers => (.ok (read answer), { desk with answers })

def note (socket : Socket) (event : SessionEvent) : HandlerM Unit :=
  .of fun desk => (.ok (), { desk with log := desk.log ++ [(socket, event)] })

def fail {Value : Type} (error : ConnError) : HandlerM Value :=
  throw (.failed error)

/-- `context(..)?`. -/
def orFail {Value : Type} (error : ConnError) :
    Except String Value → HandlerM Value
  | .ok value => pure value
  | .error _ => fail error

/-- `task_sender.send(..)`. -/
def expectSent (error : ConnError) : HandlerM Unit := do
  if ← ask Answer.sent then return
  else fail error

/-- The error of a program as a value; a program that is dropped has none. -/
def attempt {Value : Type} (program : HandlerM Value) :
    HandlerM (Except ConnError Value) :=
  .of fun desk =>
    match program.exec desk with
    | (.ok value, desk) => (.ok (.ok value), desk)
    | (.error (.failed error), desk) => (.ok (.error error), desk)
    | (.error .stopped, desk) => (.error .stopped, desk)

/-- `select!` with a cancellation: the program is dropped at a wait, and the other
arm goes on. -/
def untilCancelled (program : HandlerM Unit) : HandlerM Unit :=
  .of fun desk =>
    match program.exec desk with
    | (.error .stopped, desk) => (.ok (), desk)
    | ended => ended

/-- A loop every turn of which waits at least once. -/
def forever {Loop Value : Type} (turn : Loop → HandlerM (Loop ⊕ Value))
    (loop : Loop) : HandlerM Value :=
  .of fun desk =>
    (Effect.iterate turn .stopped desk.answers.length loop).exec desk

/-- `rx.recv()`: a stream that arrives comes with its session. -/
def recv : HandlerM Arrival := do
  let arrival ← ask Answer.arrival
  match arrival with
  | .message (.streamResp _ _ stream) => note stream.socket .received
  | _ => pure ()
  return arrival

/-! ## Writers -/

/-- `write_msg`.  The legacy codec has no keys for its directions. -/
def writeMsg (socket : Socket) (writer : HeaderMessageWriter)
    (message : List UInt8) : HandlerM HeaderMessageWriter := do
  match writer with
  | .legacy key =>
      orFail .protocol (← ask Answer.wrote)
      return .legacy key
  | .v2 writer =>
      let encryptedLen := message.length + codecTagLen
      if u32Max < encryptedLen ∨ maxMsgLen < encryptedLen then fail .protocol
      else do
        note socket (.sealed writer message)
        orFail .protocol (← ask Answer.wrote)
        if writer.counter = u64Max then fail .protocol
        else return .v2 { writer with counter := writer.counter + 1 }

/-- `write_msg(..).await.context(..)?`. -/
def writeMsgOr (error : ConnError) (socket : Socket) (writer : HeaderMessageWriter)
    (message : List UInt8) : HandlerM HeaderMessageWriter := do
  match ← attempt (writeMsg socket writer message) with
  | .ok writer => return writer
  | .error _ => fail error

section Server

variable (serializer : MessageSerializer)
  (sessions : Socket → ServerHeaderSession AuthContext)

def responseWriter (error : ConnError) (socket : Socket) :
    HandlerM HeaderMessageWriter := do
  let writer ← orFail error (sessions socket).responseWriter
  note socket .created
  return writer

def writeProtocolError (socket : Socket) (failure : AuthFailure) :
    HandlerM Unit := do
  let serverTime ← ask Answer.serverTime
  match serializer.response
    (.error failure.code failure.message failure.retryable serverTime) with
  | .error _ => return
  | .ok message =>
      match ← attempt (responseWriter sessions .protocol socket) with
      | .error _ => return
      | .ok writer =>
          let _ ← attempt (writeMsg socket writer message)

/-! ## The provider's control connection -/

def handleStreamReq (socket : Socket) (writer : HeaderMessageWriter) :
    ConnTask → HandlerM HeaderMessageWriter
  | .streamReq clientId serverGeneration => do
      let message ← orFail .serverConnDecodeStreamRequest
        (serializer.localServer (.stream clientId serverGeneration))
      writeMsgOr .serverConnWriteStreamRequest socket writer message
  | _ => pure writer

/-- One turn of the writer that `handle_server_conn` spawns. -/
def controlTurn (socket : Socket) (writer : HeaderMessageWriter) :
    HandlerM (HeaderMessageWriter ⊕ Unit) := do
  if ← ask Answer.takesCommand then
    match ← ask Answer.pong with
    | none => return .inr ()
    | some response =>
        return .inl (← writeMsgOr .serverConnWritePongResp socket writer response)
  else
    match ← recv with
    | .message (.retire _) => return .inr ()
    | .message task =>
        return .inl (← handleStreamReq serializer socket writer task)
    | .closed | .elapsed => fail .serverConnRecvConnTask

/-- The spawned writer has the session; it goes on when the reader has ended, or is
dropped at some wait. -/
def controlWriter (socket : Socket) (registerResponse : List UInt8) :
    HandlerM Unit := do
  let writer ← responseWriter sessions .serverConnCreateHeaderTool socket
  let writer ← writeMsgOr .serverConnWriteRegisteredOk socket writer
    registerResponse
  forever (controlTurn serializer socket) writer

def handleServerConn (socket : Socket) (connId : RemoteConnId) :
    HandlerM Unit := do
  expectSent .serverConnSendRegister
  match ← recv with
  | .message (.registerResp generation protocolVersion leaseTtlMs) =>
      let _ ← orFail .serverConnCreateHeaderTool
        (sessions socket).continuationReader
      let registerResponse ← orFail .serverConnEncodeRegisterResp
        (serializer.response
          (if Client.controlProtocolV2 ≤ protocolVersion then
            .registerV2 connId generation leaseTtlMs
          else .register connId))
      controlWriter serializer sessions socket registerResponse
  | .message (.registerFailed code reason retryable) =>
      let serverTime ← ask Answer.serverTime
      let response ← orFail .serverConnEncodeRegisterResp
        (serializer.response (.error code reason retryable serverTime))
      let writer ← responseWriter sessions .serverConnCreateHeaderTool socket
      let _ ← writeMsgOr .serverConnWriteRegisteredOk socket writer response
  | .message _ => fail .serverConnRegisteredRespNotMatch
  | .closed | .elapsed => fail .serverConnRecvServerRegisteredResp

/-! ## The subscriber's data connection -/

/-- What `get_server_stream` returns. -/
structure ServerStream where
  stream : DataStream
  serverId : RemoteConnId
  codecKey : Option AesKeyType
  isDatagram : Bool

def writeSubscribeResponse (socket : Socket) (connId serverId : RemoteConnId)
    (codecKey : Option AesKeyType) : HandlerM Unit := do
  let writer ← responseWriter sessions .clientConnCreateHeaderTool socket
  let message ← orFail .clientConnEncodeSubcribeResp
    (serializer.response (.subcribe codecKey connId serverId))
  let _ ← writeMsgOr .clientConnWriteSubcribeResp socket writer message

def writeSubscribeError (socket : Socket) (code reason : String)
    (retryable : Bool) : HandlerM Unit := do
  let serverTime ← ask Answer.serverTime
  let message ← orFail .clientConnEncodeSubcribeResp
    (serializer.response (.error code reason retryable serverTime))
  let writer ← responseWriter sessions .clientConnCreateHeaderTool socket
  let _ ← writeMsgOr .clientConnWriteSubcribeResp socket writer message

/-- The next attempt, without the provider of this one. -/
def excluding (excludedServerConns : List (RemoteConnId × ℕ)) (offer : Offer) :
    List (RemoteConnId × ℕ) ⊕ ServerStream :=
  .inl (excludedServerConns ++ [(offer.serverConnId, offer.serverGeneration)])

/-- A stream of the offered generation is answered and returned. -/
def takeStream (socket : Socket) (connId : RemoteConnId)
    (codecKey : Option AesKeyType)
    (offer : Offer) (serverId : RemoteConnId) (stream : DataStream) :
    HandlerM (List (RemoteConnId × ℕ) ⊕ ServerStream) := do
  writeSubscribeResponse serializer sessions socket connId serverId codecKey
  return .inr ⟨stream, serverId, codecKey, offer.isDatagram⟩

/-- The wait for the stream after its acknowledgement. -/
def awaitReady (socket : Socket) (connId : RemoteConnId)
    (excludedServerConns : List (RemoteConnId × ℕ)) (codecKey : Option AesKeyType)
    (offer : Offer) : HandlerM (List (RemoteConnId × ℕ) ⊕ ServerStream) := do
  match ← recv with
  | .closed => fail .clientConnRecvStream
  | .elapsed =>
      -- `retire_server_conn`
      let _ ← ask Answer.sent
      return excluding excludedServerConns offer
  | .message (.streamResp serverId responseGeneration stream) =>
      if responseGeneration = offer.serverGeneration then
        takeStream serializer sessions socket connId codecKey offer serverId stream
      else return excluding excludedServerConns offer
  | .message _ => fail .clientConnStreamRespNotMatch

/-- The wait for the acknowledgement, or for the stream at once. -/
def awaitAck (socket : Socket) (connId : RemoteConnId)
    (excludedServerConns : List (RemoteConnId × ℕ)) (codecKey : Option AesKeyType)
    (offer : Offer) : HandlerM (List (RemoteConnId × ℕ) ⊕ ServerStream) := do
  match ← recv with
  | .closed => fail .clientConnRecvStream
  | .elapsed =>
      let _ ← ask Answer.sent
      return excluding excludedServerConns offer
  | .message (.streamResp serverId responseGeneration stream) =>
      if responseGeneration = offer.serverGeneration then
        takeStream serializer sessions socket connId codecKey offer serverId stream
      else return excluding excludedServerConns offer
  | .message (.streamAck serverId responseGeneration) =>
      if serverId = offer.serverConnId ∧
          responseGeneration = offer.serverGeneration then
        awaitReady serializer sessions socket connId excludedServerConns codecKey
          offer
      else return excluding excludedServerConns offer
  | .message _ => return excluding excludedServerConns offer

def drawCodecKey (needCodec : Bool) : HandlerM (Option AesKeyType) := do
  if needCodec then return some (← ask Answer.genRandomKey)
  else return none

/-- One turn of the loop of `get_server_stream`. -/
def attemptTurn (socket : Socket) (connId : RemoteConnId)
    (excludedServerConns : List (RemoteConnId × ℕ)) :
    HandlerM (List (RemoteConnId × ℕ) ⊕ ServerStream) := do
  expectSent .clientConnSendSubcribe
  match ← recv with
  | .closed => fail .clientConnRecvSubcribeResp
  | .elapsed => fail .clientConnRecvSubcribeRespTimeout
  | .message (.subcribeResp serverConnId serverGeneration needCodec isDatagram) =>
      let codecKey ← drawCodecKey needCodec
      awaitAck serializer sessions socket connId excludedServerConns codecKey
        ⟨serverConnId, serverGeneration, needCodec, isDatagram⟩
  | .message (.subcribeFailed code reason retryable) =>
      writeSubscribeError serializer sessions socket code reason retryable
      fail .clientConnSubcribeFailed
  | .message (.subcribeRetry _) =>
      if ← ask Answer.late then fail .clientConnSubcribeFailed
      else return .inl excludedServerConns
  | .message _ => fail .clientConnSubcribeRespNotMatch

def getServerStream (socket : Socket) (connId : RemoteConnId) :
    HandlerM ServerStream :=
  forever (attemptTurn serializer sessions socket connId) []

/-- `forwarding` of `handle_client_conn`; the bytes it passes on are not written
over the session. -/
def forwarding (serverStream : ServerStream) : HandlerM Unit := do
  let socket := serverStream.stream.socket
  let writer ← responseWriter sessions .clientConnCreateHeaderTool socket
  let message ← orFail .clientConnEncodeStreamResp
    (serializer.response (.stream serverStream.codecKey))
  let _ ← writeMsgOr .clientConnWriteStreamResp socket writer message
  let _ ← ask Answer.wrote

def handleClientConn (socket : Socket) (connId : RemoteConnId) :
    HandlerM Unit := do
  match ← attempt (getServerStream serializer sessions socket connId) with
  | .error error =>
      -- `guard.deregister()`
      let _ ← ask Answer.sent
      fail error
  | .ok serverStream =>
      match (sessions serverStream.stream.socket).context with
      | none => fail .clientConnAuthInactive
      | some _ =>
          match ← ask Answer.permitted with
          | .error _ => fail .clientConnAuthInactive
          | .ok () =>
              let result ← attempt
                (untilCancelled (forwarding serializer sessions serverStream))
              let _ ← ask Answer.sent
              match result with
              | .ok () => return
              | .error error => fail error

/-! ## Status and administrator requests -/

/-- The block of `handle_show_status` before its deregistration. -/
def showStatus (socket : Socket) : HandlerM Unit := do
  expectSent .statusSendManagerTask
  match ← recv with
  | .message (.statusResp response) =>
      let message ← orFail .statusEncodeResp
        (serializer.response (.status response))
      let writer ← responseWriter sessions .statusCreateHeaderTool socket
      let _ ← writeMsgOr .statusWriteResp socket writer message
  | .message _ => fail .statusConnTaskNotMatch
  | .closed | .elapsed => fail .statusRecvConnTask

def handleShowStatus (socket : Socket) : HandlerM Unit := do
  let result ← attempt (showStatus serializer sessions socket)
  let _ ← ask Answer.sent
  match result with
  | .ok () => return
  | .error error => fail error

/-- The response to what `execute` returns. -/
def adminResponse : Except AuthFailure AdminResponse → HandlerM PbConnResponse
  | .ok response => return .admin response
  | .error failure => do
      let serverTime ← ask Answer.serverTime
      return .error failure.code failure.message failure.retryable serverTime

def handleAdminRequest (socket : Socket) : HandlerM Unit := do
  let response ← adminResponse (← ask Answer.executed)
  let message ← orFail .adminOperation (serializer.response response)
  let writer ← responseWriter sessions .adminOperation socket
  let _ ← writeMsgOr .adminOperation socket writer message

/-! ## `handle_conn` -/

/-- The request of a first frame; the scoped kinds carry a namespace. -/
structure SessionRequest where
  requestedNamespace : Option UInt64
  forceNamespace : Bool
  request : PbConnRequest
  /-- `request.is_mutating()` of an administrator's request. -/
  isMutating : Bool

/-- What `read_initial` and the decoding of its payload come to. -/
inductive InitialRead where
  | timeout
  | failed (failure : AuthFailure) (hasResponseSession : Bool)
  | undecodable
  | request (request : SessionRequest)

def runWhileCredentialActive (socket : Socket) (work : HandlerM Unit) :
    HandlerM Unit := do
  match ← ask Answer.permitted with
  | .error failure => writeProtocolError serializer sessions socket failure
  | .ok () => untilCancelled work

/-- The stream and its session are moved to the manager. -/
def handOver (socket : Socket) : HandlerM Unit := do
  if ← ask Answer.sent then note socket .handedOver
  else fail .taskCenterSendStreamRespToManager

/-- A request whose namespace has been resolved. -/
def serveRequest (socket : Socket) (connId : RemoteConnId) (context : AuthContext)
    (nameSpace : UInt64) (init : SessionRequest) : HandlerM Unit := do
  let reject := writeProtocolError serializer sessions socket
  let run := runWhileCredentialActive serializer sessions socket
  match init.request with
  | .register key _ _ _ =>
      match scopeServiceOrReject context nameSpace key with
      | .error failure => reject failure
      | .ok _ => run (handleServerConn serializer sessions socket connId)
  | .subcribe key =>
      match scopeServiceOrReject context nameSpace key with
      | .error failure => reject failure
      | .ok _ => run (handleClientConn serializer sessions socket connId)
  | .stream key _ _ =>
      match scopeServiceOrReject context nameSpace key with
      | .error failure => reject failure
      | .ok _ => handOver socket
  | .status _ => run (handleShowStatus serializer sessions socket)
  | .admin =>
      if !context.isAdmin then
        reject ⟨"admin_permission_required",
          "administrator credential is required for this operation", false⟩
      else if (sessions socket).protocol ≠ .v2 then
        reject ⟨"admin_protocol_v2_required",
          "administrator operations require protocol v2", false⟩
      else if init.isMutating then
        -- `claim_admin_mutation`
        match ← ask Answer.permitted with
        | .error failure => reject failure
        | .ok () => handleAdminRequest serializer sessions socket
      else handleAdminRequest serializer sessions socket

def handleConn (socket : Socket) (connId : RemoteConnId) :
    InitialRead → HandlerM Unit
  | .timeout => fail .taskCenterInitRequestTimeout
  | .failed failure true => writeProtocolError serializer sessions socket failure
  | .failed _ false => pure ()
  | .undecodable =>
      writeProtocolError serializer sessions socket
        ⟨"request_decode_failed", "authenticated request payload is malformed", false⟩
  | .request init =>
      match (sessions socket).context with
      | none => pure ()
      | some context =>
          let isRegister := match init.request with
            | .register .. => true
            | _ => false
          match resolveNamespace context init.requestedNamespace
            init.forceNamespace isRegister with
          | .error failure => writeProtocolError serializer sessions socket failure
          | .ok nameSpace =>
              serveRequest serializer sessions socket connId context nameSpace init

end Server

/-! ## Clients -/

section Clients

variable (serializer : MessageSerializer) (clients : Socket → ClientHeaderSession)

/-- The prefix, then the first frame. -/
def writeInitial (socket : Socket) (message : List UInt8) : HandlerM Unit := do
  orFail .writeInitial (← ask Answer.wrote)
  let writer : V2MessageWriter :=
    ⟨(clients socket).v2Material, .clientToServer, 0⟩
  let _ ← writeMsgOr .writeInitial socket (.v2 writer) message

/-- `exchange`, and the like of it in the administrator's command line: a first
frame and its answer. -/
def exchange (socket : Socket) (payload : List UInt8) : HandlerM Unit := do
  writeInitial clients socket payload
  let _ ← ask Answer.wrote

def getPingMessage (protocolVersion seq : ℕ) : Except String (List UInt8) :=
  serializer.serverRequest
    (if Client.controlProtocolV2 ≤ protocolVersion then .pingV2 seq else .ping)

/-- One turn of the writer that `run_server_side_cli_inner` spawns. -/
def clientTurn (socket : Socket) (protocolVersion : ℕ)
    (writer : HeaderMessageWriter) : HandlerM (HeaderMessageWriter ⊕ Unit) := do
  match ← ask Answer.control with
  | none => return .inr ()
  | some (.ping seq) =>
      let message ← orFail .encodePingMsg
        (getPingMessage serializer protocolVersion seq)
      return .inl (← writeMsgOr .writePingMsg socket writer message)
  | some (.streamAck clientId serverGeneration) =>
      let message ← orFail .encodeStreamAckMsg
        (serializer.serverRequest (.streamAck clientId serverGeneration))
      return .inl (← writeMsgOr .writeStreamAckMsg socket writer message)

/-- The provider's control connection: the first frame, and once it is registered
the frames of its control writer. -/
def runServerSideCli (socket : Socket) (payload : List UInt8) : HandlerM Unit := do
  writeInitial clients socket payload
  match ← ask Answer.registered with
  | none => fail .registerRespNotMatch
  | some protocolVersion =>
      forever (clientTurn serializer socket protocolVersion)
        (.v2 (clients socket).continuationWriter)

/-- What a client opens a connection for. -/
inductive Errand where
  | exchange (payload : List UInt8)
  | serve (payload : List UInt8)

def runErrand (socket : Socket) : Errand → HandlerM Unit
  | .exchange payload => exchange clients socket payload
  | .serve payload => runServerSideCli serializer clients socket payload

end Clients

end PbMapper.Session

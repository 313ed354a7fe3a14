import PbMapper.Relay.Scope
import PbMapper.Relay.TaskManager
import Mathlib.Data.Rat.Floor

/-!
# Messages of the relay

The tasks connection handlers send to the manager and the messages the manager
sends back, with the records both carry.
-/

namespace PbMapper.Relay

open Auth

/-- A TCP connection, numbered in the order in which the manager accepts them.
A handler has at most one channel, so the number also names the channel that the
manager's messages to it go through. -/
abbrev Socket := ℕ

/-- A reading of the monotonic clock, in seconds. -/
abbrev Instant := ℚ

/-! ## Registrations -/

inductive ServerConnHealth where
  | healthy
  | suspect
deriving DecidableEq, Repr

structure ServerConnInfo where
  connId : RemoteConnId
  generation : ℕ
  health : ServerConnHealth
  needCodec : Bool
  isDatagram : Bool
  protocolVersion : ℕ
  lastRxAt : Instant
deriving DecidableEq

abbrev ServerConnMap := Table ImutableKey (List ServerConnInfo)

/-- A data connection opened by a provider: its socket, and the service its
session was authenticated and scoped to. -/
structure DataStream where
  socket : Socket
  service : ScopedService

/-! ## Status -/

inductive PbConnStatusReq where
  | remoteId
  | keys
  | service (key : List Char)
deriving DecidableEq

structure PbServiceConnStatus where
  connId : RemoteConnId
  generation : ℕ
  protocolVersion : ℕ
  healthy : Bool
  lastRxAgeMs : ℕ
deriving DecidableEq

/-- The data of a status answer; `RemoteId` prints it as text. -/
inductive PbConnStatusResp where
  | remoteId (serverMap : List (List Char × List ServerConnInfo))
      (registered clients : List RemoteConnId)
  | keys (names : List (List Char))
  | service (key : List Char) (connections : List PbServiceConnStatus)

/-! ## Tasks -/

/-- Why a subscriber gives up on a provider. -/
inductive RetireReason where
  | streamAckTimeout (clientId : RemoteConnId)
  | streamReadyTimeout (clientId : RemoteConnId)
deriving DecidableEq

inductive ManagerTask where
  /-- The stream and the peer address are only passed on to the handler. -/
  | accept
  | register (key : ImutableKey) (connId : RemoteConnId)
      (needCodec isDatagram : Bool) (protocolVersion : ℕ) (connSender : Socket)
  | serverConnActivity (key : ImutableKey) (connId : RemoteConnId)
  | subcribe (key : ImutableKey) (connId : RemoteConnId) (connSender : Socket)
      (excludedServerConns : List (RemoteConnId × ℕ))
  | stream (key : ImutableKey) (stream : DataStream)
      (serverId clientId : RemoteConnId) (serverGeneration : ℕ)
  | streamAck (serverId clientId : RemoteConnId) (serverGeneration : ℕ)
  | status (connSender : Socket) (status : PbConnStatusReq)
      (nameSpace : UInt64) (connId : RemoteConnId)
  | deRegisterServerConn (key : ImutableKey) (connId : RemoteConnId)
  | retireServerConn (key : ImutableKey) (connId : RemoteConnId)
      (reason : RetireReason)
  | deRegisterClientConn (serverId : Option RemoteConnId)
      (clientId : RemoteConnId)
  | shutdown

inductive ConnTask where
  | registerResp (generation protocolVersion leaseTtlMs : ℕ)
  | registerFailed (code reason : String) (retryable : Bool)
  | subcribeResp (serverConnId : RemoteConnId) (serverGeneration : ℕ)
      (needCodec isDatagram : Bool)
  | subcribeFailed (code reason : String) (retryable : Bool)
  | subcribeRetry (reason : String)
  | streamReq (clientId : RemoteConnId) (serverGeneration : ℕ)
  | retire (reason : RetireReason)
  | streamAck (serverId : RemoteConnId) (serverGeneration : ℕ)
  | streamResp (serverId : RemoteConnId) (serverGeneration : ℕ)
      (stream : DataStream)
  | statusResp (response : PbConnStatusResp)

end PbMapper.Relay

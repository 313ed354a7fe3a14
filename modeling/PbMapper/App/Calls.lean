import PbMapper.App.State
import PbMapper.Foundation.Transition

/-!
# The calls on the application's state

`register_service` and `connect_service` hold the state's lock for their first and
last phase only, and the claim of their key until they return; the other operations
hold the lock throughout.  Any number of calls are interleaved.
-/

namespace PbMapper.App

open Auth (Credential)

/-! ## The phases of a call -/

structure RegisterArgs where
  serviceKey : ServiceKey
  localAddress : String
  protocol : String
  enableEncryption : Bool
  enableKeepAlive : Bool

structure ConnectArgs where
  serviceKey : ServiceKey
  localAddress : String
  protocol : String
  enableKeepAlive : Bool

/-- How the slow steps end: the two addresses, then the connection to the server or
the bind of the local address. -/
structure SlowIo where
  localAddress : Except String SocketAddr
  serverAddress : Except String SocketAddr
  preflight : Except String Unit

/-- `map_err(..)?`. -/
def orElseError {Value : Type} (error : String → CtlError) :
    Except String Value → Except CtlError Value
  | .ok value => .ok value
  | .error text => .error (error text)

def SlowIo.addresses (io : SlowIo) : Except CtlError (SocketAddr × SocketAddr) := do
  let localSockAddr ← orElseError
    (fun text => ⟨.invalidAddress, "Invalid local address: " ++ text⟩) io.localAddress
  let remoteSockAddr ← orElseError
    (fun text => ⟨.invalidAddress, "Invalid server address: " ++ text⟩)
    io.serverAddress
  return (localSockAddr, remoteSockAddr)

/-- How far a call has come; `Commit` is what it commits. -/
inductive Phase (Commit : Type) where
  /-- The state's lock is released for the slow steps. -/
  | resolving (serverAddress : String) (credential : Credential)
  | committing (commit : Commit)
  | returning (result : Except CtlError Unit)

/-- A call that holds the claim of its key. -/
inductive Call where
  | register (args : RegisterArgs) (phase : Phase RegisterCommit)
  | connect (args : ConnectArgs) (phase : Phase ConnectCommit)

namespace Call

def registers : Call → Option ServiceKey
  | .register args _ => some args.serviceKey
  | .connect _ _ => none

def connects : Call → Option ServiceKey
  | .register _ _ => none
  | .connect args _ => some args.serviceKey

/-- What the call is about to return. -/
def result : Call → Option (Except CtlError Unit)
  | .register _ (.returning result) | .connect _ (.returning result) => some result
  | .register _ _ | .connect _ _ => none

end Call

/-- The middle phase of `register_service`. -/
def RegisterArgs.resolve (args : RegisterArgs) (serverAddress : String)
    (credential : Credential) (io : SlowIo) : Except CtlError RegisterCommit := do
  let (localSockAddr, remoteSockAddr) ← io.addresses
  orElseError (fun text => ⟨.serverUnreachable,
    "Failed to connect to server " ++ serverAddress ++ ": " ++ text⟩) io.preflight
  return {
    serviceKey := args.serviceKey
    localAddress := args.localAddress
    protocol := args.protocol
    enableEncryption := args.enableEncryption
    enableKeepAlive := args.enableKeepAlive
    localSockAddr := localSockAddr
    remoteSockAddr := remoteSockAddr
    credential := credential }

/-- The middle phase of `connect_service`; it binds the local address by either
protocol in the same way. -/
def ConnectArgs.resolve (args : ConnectArgs) (credential : Credential)
    (io : SlowIo) :
    Except CtlError ConnectCommit := do
  let (localSockAddr, remoteSockAddr) ← io.addresses
  orElseError (fun text => ⟨.addressInUse,
    "Failed to bind local address " ++ args.localAddress ++ ": " ++ text⟩)
    io.preflight
  return {
    serviceKey := args.serviceKey
    localAddress := args.localAddress
    protocol := args.protocol
    enableKeepAlive := args.enableKeepAlive
    localSockAddr := localSockAddr
    remoteSockAddr := remoteSockAddr
    credential := credential }

/-- The phase after the slow steps. -/
def Phase.afterSlow {Commit : Type} : Except CtlError Commit → Phase Commit
  | .ok commit => .committing commit
  | .error error => .returning (.error error)

/-! ## Interleavings -/

abbrev CallId := ℕ

/-- The state behind the lock, and the calls that hold a claim. -/
structure Application where
  state : PbMapperState
  calls : Table CallId Call
  nextCall : CallId

inductive Event where
  | register (args : RegisterArgs) (credential : Except String Credential)
  | connect (args : ConnectArgs) (credential : Except String Credential)
  | resolve (call : CallId) (io : SlowIo)
  | finishRegister (call : CallId) (io : ConfigIo ServiceConfigData)
  | finishConnect (call : CallId) (io : ConfigIo ClientConfigData)
  /-- The call returns, and its claim is dropped. -/
  | release (call : CallId)
  | unregisterService (key : ServiceKey)
  | disconnectService (key : ServiceKey)
  | deleteServiceConfigAndStop (key : ServiceKey) (io : ConfigIo ServiceConfigData)
  | deleteClientConfigAndStop (key : ServiceKey) (io : ConfigIo ClientConfigData)
  | startServer (started : Except CtlError Unit)
  | stopServer
  /-- The settings change, and with them the directory of the stores. -/
  | configure (serverAddress : String)
      (serviceConfigs : ConfigStore ServiceConfigData)
      (clientConfigs : ConfigStore ClientConfigData)

/-- A phase of `register_service` or `connect_service`. -/
def Event.isPhase : Event → Bool
  | .register _ _ | .connect _ _ | .resolve _ _ | .finishRegister _ _
  | .finishConnect _ _ | .release _ => true
  | .unregisterService _ | .disconnectService _ | .deleteServiceConfigAndStop _ _
  | .deleteClientConfigAndStop _ _ | .startServer _ | .stopServer
  | .configure _ _ _ => false

namespace Application

variable (app : Application)

def new (serverAddress : String) (serviceConfigs : ConfigStore ServiceConfigData)
    (clientConfigs : ConfigStore ClientConfigData) : Application :=
  ⟨.new serverAddress serviceConfigs clientConfigs, ∅, 0⟩

/-- The first phase: a claim, and a credential without which the claim is dropped
at once. -/
def begin (claimed : Except CtlError PbMapperState)
    (credential : Except String Credential) (call : Credential → Call) :
    Application :=
  match claimed, credential with
  | .ok state, .ok credential =>
      { state
        calls := app.calls.insert app.nextCall (call credential)
        nextCall := app.nextCall + 1 }
  | .ok _, .error _ | .error _, _ => app

def setCall (id : CallId) (call : Call) : Application :=
  { app with calls := app.calls.insert id call }

def resolve (id : CallId) (io : SlowIo) : Option Application :=
  match app.calls.lookup id with
  | some (.register args (.resolving serverAddress credential)) =>
      some (app.setCall id (.register args
        (.afterSlow (args.resolve serverAddress credential io))))
  | some (.connect args (.resolving _ credential)) =>
      some (app.setCall id (.connect args (.afterSlow (args.resolve credential io))))
  | _ => none

def finishRegister (id : CallId) (io : ConfigIo ServiceConfigData) :
    Option Application :=
  match app.calls.lookup id with
  | some (.register args (.committing commit)) =>
      let (result, state) := app.state.finishRegister commit io
      some ({ app with state }.setCall id (.register args (.returning result)))
  | _ => none

def finishConnect (id : CallId) (io : ConfigIo ClientConfigData) :
    Option Application :=
  match app.calls.lookup id with
  | some (.connect args (.committing commit)) =>
      let (result, state) := app.state.finishConnect commit io
      some ({ app with state }.setCall id (.connect args (.returning result)))
  | _ => none

/-- `drop` of the call's `KeyClaim`. -/
def release (id : CallId) : Option Application :=
  let calls := app.calls.erase id
  match app.calls.lookup id with
  | some (.register args (.returning _)) =>
      some { app with
        calls
        state := { app.state with
          registering := app.state.registering.erase args.serviceKey } }
  | some (.connect args (.returning _)) =>
      some { app with
        calls
        state := { app.state with
          connecting := app.state.connecting.erase args.serviceKey } }
  | _ => none

def step : Event → Option Application
  | .register args credential =>
      some (app.begin (app.state.claimRegistering args.serviceKey) credential
        fun credential =>
          .register args (.resolving app.state.serverAddress credential))
  | .connect args credential =>
      some (app.begin (app.state.claimConnecting args.serviceKey) credential
        fun credential =>
          .connect args (.resolving app.state.serverAddress credential))
  | .resolve id io => app.resolve id io
  | .finishRegister id io => app.finishRegister id io
  | .finishConnect id io => app.finishConnect id io
  | .release id => app.release id
  | .unregisterService key =>
      some { app with state := (app.state.unregisterService key).2 }
  | .disconnectService key =>
      some { app with state := (app.state.disconnectService key).2 }
  | .deleteServiceConfigAndStop key io =>
      some { app with state := (app.state.deleteServiceConfigAndStop key io).2 }
  | .deleteClientConfigAndStop key io =>
      some { app with state := (app.state.deleteClientConfigAndStop key io).2 }
  | .startServer started =>
      some { app with state := (app.state.startServer started).2 }
  | .stopServer => some { app with state := app.state.stopServer.2 }
  | .configure serverAddress serviceConfigs clientConfigs =>
      some { app with
        state := { app.state with serverAddress, serviceConfigs, clientConfigs } }

/-- The state starts without tunnels and claims. -/
def system : Transition.System Application Event :=
  .ofPartial (fun app => ∃ serverAddress serviceConfigs clientConfigs,
    app = .new serverAddress serviceConfigs clientConfigs) step

end Application

end PbMapper.App

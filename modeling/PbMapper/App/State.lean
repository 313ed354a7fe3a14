import PbMapper.Auth.CredentialText
import PbMapper.Foundation.Table

/-!
# The application's tunnels

The state that the window and the terminal share: the tunnels they have started, the
listings they show, and what each operation does to them under the state's lock.
-/

namespace PbMapper.App

open Auth (Credential)

/-! ## Errors -/

inductive ErrorCode where
  | notFound
  | alreadyExists
  | alreadyInProgress
  | invalidAddress
  | invalidArgument
  | serverUnreachable
  | addressInUse
  | timeout
  | protocol
  | io
  | internal
deriving DecidableEq, Repr

structure CtlError where
  code : ErrorCode
  message : String
deriving DecidableEq, Repr

/-! ## Tunnels -/

abbrev ServiceKey := List Char

structure SocketAddr where
  ip : List UInt8
  port : UInt16
deriving DecidableEq, Repr

/-- `str::eq_ignore_ascii_case`. -/
def eqIgnoreAsciiCase (left right : String) : Bool :=
  left.map Char.toLower == right.map Char.toLower

structure ServerTunnelOptions where
  needCodec : Bool
  isDatagram : Bool
  keepAlive : Bool
  nameSpace : Option UInt64
  forceNamespace : Bool

/-- What a tunnel task runs. -/
inductive Tunnel where
  | register (isTcp : Bool) (localSockAddr remoteSockAddr : SocketAddr)
      (options : ServerTunnelOptions) (credential : Credential)
  | connect (isTcp : Bool) (localSockAddr remoteSockAddr : SocketAddr)
      (enableKeepAlive : Bool) (credential : Credential)

/-- The identity of a spawned task. -/
abbrev JoinHandle := ℕ

structure TunnelTask where
  handle : JoinHandle
  key : ServiceKey
  tunnel : Tunnel

structure PinnedTunnel where
  credential : Credential
  endpoint : SocketAddr

structure TunnelRuntime where
  handle : JoinHandle
  pin : PinnedTunnel

/-- The tunnels of one direction: `service_runtime` with `registered_services`, or
`client_runtime` with `active_connections`.  `tasks` is the executor's: what was
spawned and nobody has aborted. -/
structure Tunnels (Info : Type) where
  runtime : Table ServiceKey TunnelRuntime
  listing : Table ServiceKey Info
  tasks : List TunnelTask

namespace Tunnels

variable {Info : Type} (tunnels : Tunnels Info)

def new : Tunnels Info := ⟨∅, ∅, []⟩

/-- `JoinHandle::abort`. -/
def abort (handle : JoinHandle) : Tunnels Info :=
  { tunnels with tasks := tunnels.tasks.filter fun task => task.handle ≠ handle }

def abortRuntime (key : ServiceKey) : Bool × Tunnels Info :=
  match tunnels.runtime.lookup key with
  | some runtime =>
      (true,
        { tunnels with runtime := tunnels.runtime.erase key }.abort runtime.handle)
  | none => (false, tunnels)

def replaceRuntime (key : ServiceKey) (runtime : TunnelRuntime) : Tunnels Info :=
  let inserted := { tunnels with runtime := tunnels.runtime.insert key runtime }
  match tunnels.runtime.lookup key with
  | some previous => inserted.abort previous.handle
  | none => inserted

def spawn (task : TunnelTask) : Tunnels Info :=
  { tunnels with tasks := tunnels.tasks ++ [task] }

def list (key : ServiceKey) (info : Info) : Tunnels Info :=
  { tunnels with listing := tunnels.listing.insert key info }

def unlist (key : ServiceKey) : Tunnels Info :=
  { tunnels with listing := tunnels.listing.erase key }

/-- Every task of the map is aborted as the map is drained, and the listing is
cleared. -/
def drain : Tunnels Info where
  runtime := ∅
  listing := ∅
  tasks := tunnels.tasks.filter fun task =>
    !tunnels.runtime.entries.any fun entry => entry.2.handle == task.handle

end Tunnels

/-! ## Stored configurations -/

structure ServiceConfigData where
  serviceKey : ServiceKey
  localAddress : String
  protocol : String
  enableEncryption : Bool
  enableKeepAlive : Bool
  createdAt : ℕ

structure ClientConfigData where
  serviceKey : ServiceKey
  localAddress : String
  protocol : String
  enableKeepAlive : Bool
  createdAt : ℕ

abbrev ConfigStore (Data : Type) := Table ServiceKey Data

/-- How a write of a store ends. -/
inductive ConfigWrite (Data : Type) where
  | written
  | noDir (error : String)
  | unserializable (error : String)
  /-- The file then reads as `left`. -/
  | torn (error : String) (left : ConfigStore Data)

def ConfigWrite.succeeds {Data : Type} : ConfigWrite Data → Bool
  | .written => true
  | .noDir _ | .unserializable _ | .torn _ _ => false

/-- The file system, during one operation on a store. -/
structure ConfigIo (Data : Type) where
  /-- The file can be read and parsed. -/
  readable : Bool
  now : ℕ
  write : ConfigWrite Data

namespace ConfigIo

variable {Data : Type} (io : ConfigIo Data) (file : ConfigStore Data)

/-- `load_service_configs`, `load_client_configs`. -/
def load : ConfigStore Data := if io.readable then file else ∅

/-- `save_service_configs`, `save_client_configs`: the texts say which file it is. -/
def save (serialized written : String) (store : ConfigStore Data) :
    Except CtlError Unit × ConfigStore Data :=
  match io.write with
  | .written => (.ok (), store)
  | .noDir error => (.error ⟨.io, "Failed to create config dir: " ++ error⟩, file)
  | .unserializable error => (.error ⟨.io, serialized ++ error⟩, file)
  | .torn error left => (.error ⟨.io, written ++ error⟩, left)

def saveServices (file : ConfigStore ServiceConfigData)
    (io : ConfigIo ServiceConfigData) (store : ConfigStore ServiceConfigData) :
    Except CtlError Unit × ConfigStore ServiceConfigData :=
  io.save file "Failed to serialize config: " "Failed to write config file: " store

def saveClients (file : ConfigStore ClientConfigData)
    (io : ConfigIo ClientConfigData) (store : ConfigStore ClientConfigData) :
    Except CtlError Unit × ConfigStore ClientConfigData :=
  io.save file "Failed to serialize client config: "
    "Failed to write client config file: " store

end ConfigIo

/-! ## The state -/

structure ServiceInfo where
  serviceKey : ServiceKey
  protocol : String
  localAddress : String
  status : String

structure ConnectionInfo where
  serviceKey : ServiceKey
  clientId : List Char
  status : String

structure PbMapperState where
  /-- `server_handle` and `server_shutdown_token` are there. -/
  serverRunning : Bool
  services : Tunnels ServiceInfo
  clients : Tunnels ConnectionInfo
  /-- `config.server_address`. -/
  serverAddress : String
  serviceConfigs : ConfigStore ServiceConfigData
  clientConfigs : ConfigStore ClientConfigData
  registering : List ServiceKey
  connecting : List ServiceKey
  /-- The number of tunnel tasks that were spawned. -/
  spawned : JoinHandle

structure RegisterCommit where
  serviceKey : ServiceKey
  localAddress : String
  protocol : String
  enableEncryption : Bool
  enableKeepAlive : Bool
  localSockAddr : SocketAddr
  remoteSockAddr : SocketAddr
  credential : Credential

structure ConnectCommit where
  serviceKey : ServiceKey
  localAddress : String
  protocol : String
  enableKeepAlive : Bool
  localSockAddr : SocketAddr
  remoteSockAddr : SocketAddr
  credential : Credential

/-- `claim_key`: a set in which the key is not yet. -/
def claimKey (claims : List ServiceKey) (key : ServiceKey) (what : String) :
    Except CtlError (List ServiceKey) :=
  if key ∈ claims then
    .error ⟨.alreadyInProgress, "'" ++ String.ofList key ++ "' is already " ++ what⟩
  else .ok (key :: claims)

namespace PbMapperState

variable (state : PbMapperState)

def new (serverAddress : String) (serviceConfigs : ConfigStore ServiceConfigData)
    (clientConfigs : ConfigStore ClientConfigData) : PbMapperState :=
  ⟨false, .new, .new, serverAddress, serviceConfigs, clientConfigs, [], [], 0⟩

/-- A start that binds its port and opens its authentication, or does not. -/
def startServer (started : Except CtlError Unit) :
    Except CtlError Unit × PbMapperState :=
  if state.serverRunning then
    (.error ⟨.alreadyExists, "Server is already running"⟩, state)
  else
    match started with
    | .ok () => (.ok (), { state with serverRunning := true })
    | .error error => (.error error, state)

def stopServer : Except CtlError Unit × PbMapperState :=
  if state.serverRunning then
    (.ok (), { state with
      serverRunning := false
      services := state.services.drain
      clients := state.clients.drain })
  else (.error ⟨.notFound, "Server is not running"⟩, state)

/-! ### Services -/

def saveServiceConfig (commit : RegisterCommit) (io : ConfigIo ServiceConfigData) :
    Except CtlError Unit × PbMapperState :=
  let store := io.load state.serviceConfigs
  let config : ServiceConfigData :=
    { serviceKey := commit.serviceKey
      localAddress := commit.localAddress
      protocol := commit.protocol
      enableEncryption := commit.enableEncryption
      enableKeepAlive := commit.enableKeepAlive
      createdAt := match store.lookup commit.serviceKey with
        | some stored => stored.createdAt
        | none => io.now }
  let (result, file) :=
    io.saveServices state.serviceConfigs (store.insert commit.serviceKey config)
  (result, { state with serviceConfigs := file })

/-- `spawn_register_tunnel`. -/
def registerTunnel (commit : RegisterCommit) : Tunnel :=
  .register (eqIgnoreAsciiCase commit.protocol "TCP") commit.localSockAddr
    commit.remoteSockAddr
    { needCodec := commit.enableEncryption
      isDatagram := !eqIgnoreAsciiCase commit.protocol "TCP"
      keepAlive := commit.enableKeepAlive
      nameSpace := none
      forceNamespace := false }
    commit.credential

def finishRegister (commit : RegisterCommit) (io : ConfigIo ServiceConfigData) :
    Except CtlError Unit × PbMapperState :=
  let (_, services) := state.services.abortRuntime commit.serviceKey
  let state := { state with services }
  match state.saveServiceConfig commit io with
  | (.error error, state) =>
      (.error ⟨.io, "Failed to save service configuration: " ++ error.message⟩, state)
  | (.ok (), state) =>
      let handle := state.spawned
      let services := state.services
        |>.spawn ⟨handle, commit.serviceKey, registerTunnel commit⟩
        |>.replaceRuntime commit.serviceKey
            ⟨handle, commit.credential, commit.remoteSockAddr⟩
        |>.list commit.serviceKey
            { serviceKey := commit.serviceKey
              protocol := commit.protocol
              localAddress := commit.localAddress
              status := "Registering" }
      (.ok (), { state with services, spawned := handle + 1 })

def unregisterService (key : ServiceKey) : Except CtlError Unit × PbMapperState :=
  let (_, services) := state.services.abortRuntime key
  match services.listing.lookup key with
  | some _ => (.ok (), { state with services := services.unlist key })
  | none =>
      (.error ⟨.notFound, "Service '" ++ String.ofList key ++ "' is not registered"⟩,
        { state with services })

def deleteServiceConfigAndStop (key : ServiceKey)
    (io : ConfigIo ServiceConfigData) :
    Except CtlError Unit × PbMapperState :=
  let (_, services) := state.services.abortRuntime key
  let (result, file) := io.saveServices state.serviceConfigs
    ((io.load state.serviceConfigs).erase key)
  (result, { state with services := services.unlist key, serviceConfigs := file })

/-! ### Clients -/

def saveClientConfig (commit : ConnectCommit) (io : ConfigIo ClientConfigData) :
    Except CtlError Unit × PbMapperState :=
  let store := io.load state.clientConfigs
  let config : ClientConfigData :=
    { serviceKey := commit.serviceKey
      localAddress := commit.localAddress
      protocol := commit.protocol
      enableKeepAlive := commit.enableKeepAlive
      createdAt := match store.lookup commit.serviceKey with
        | some stored => stored.createdAt
        | none => io.now }
  let (result, file) :=
    io.saveClients state.clientConfigs (store.insert commit.serviceKey config)
  (result, { state with clientConfigs := file })

/-- `spawn_connect_tunnel`, with the protocol in upper case. -/
def connectTunnel (commit : ConnectCommit) : Tunnel :=
  .connect (eqIgnoreAsciiCase commit.protocol.toUpper "TCP") commit.localSockAddr
    commit.remoteSockAddr commit.enableKeepAlive commit.credential

def finishConnect (commit : ConnectCommit) (io : ConfigIo ClientConfigData) :
    Except CtlError Unit × PbMapperState :=
  let (_, clients) := state.clients.abortRuntime commit.serviceKey
  let handle := state.spawned
  let clients := clients
    |>.spawn ⟨handle, commit.serviceKey, connectTunnel commit⟩
    |>.replaceRuntime commit.serviceKey
        ⟨handle, commit.credential, commit.remoteSockAddr⟩
    |>.list commit.serviceKey
        { serviceKey := commit.serviceKey
          clientId := "client-".toList ++ commit.serviceKey
          status := "Connected" }
  let state := { state with clients, spawned := handle + 1 }
  -- a configuration that cannot be saved is only a warning
  (.ok (), (state.saveClientConfig commit io).2)

def disconnectService (key : ServiceKey) : Except CtlError Unit × PbMapperState :=
  let (aborted, clients) := state.clients.abortRuntime key
  let wasListed := (clients.listing.lookup key).isSome
  let state := { state with clients := clients.unlist key }
  if aborted || wasListed then (.ok (), state)
  else
    (.error ⟨.notFound, "Service '" ++ String.ofList key ++ "' is not connected"⟩,
      state)

def deleteClientConfigAndStop (key : ServiceKey) (io : ConfigIo ClientConfigData) :
    Except CtlError Unit × PbMapperState :=
  let (_, clients) := state.clients.abortRuntime key
  let (result, file) := io.saveClients state.clientConfigs
    ((io.load state.clientConfigs).erase key)
  (result, { state with clients := clients.unlist key, clientConfigs := file })

/-! ### Claims -/

def claimRegistering (key : ServiceKey) : Except CtlError PbMapperState :=
  (claimKey state.registering key "being registered").map fun registering =>
    { state with registering }

def claimConnecting (key : ServiceKey) : Except CtlError PbMapperState :=
  (claimKey state.connecting key "being connected").map fun connecting =>
    { state with connecting }

end PbMapperState

end PbMapper.App

import PbMapper.App.Calls
import PbMapper.App.Tunnels

/-!
# The application's bookkeeping

The tasks that run, the maps that own them and the listings that show them agree in
every interleaving, and a call that fails changes none of them, as long as no
registration loses the write of its configuration while its key has a tunnel.
-/

namespace PbMapper.App

/-! ## The state -/

namespace PbMapperState

/-- Both maps agree with their tasks and listings, and no handle is used again. -/
structure Exact (state : PbMapperState) : Prop where
  services : state.services.Exact
  clients : state.clients.Exact
  servicesSpawned : ∀ task ∈ state.services.tasks, task.handle < state.spawned
  clientsSpawned : ∀ task ∈ state.clients.tasks, task.handle < state.spawned

/-- The claims that are kept beside the tunnels. -/
def claims (state : PbMapperState) : List ServiceKey × List ServiceKey :=
  (state.registering, state.connecting)

variable {state : PbMapperState}

theorem claims_unregisterService (key : ServiceKey) :
    (state.unregisterService key).2.claims = state.claims := by
  rw [unregisterService]
  dsimp only
  split <;> rfl

theorem claims_disconnectService (key : ServiceKey) :
    (state.disconnectService key).2.claims = state.claims := by
  rw [disconnectService]
  dsimp only
  split <;> rfl

theorem claims_startServer (started : Except CtlError Unit) :
    (state.startServer started).2.claims = state.claims := by
  rw [startServer.eq_def]
  split
  · rfl
  · cases started <;> rfl

theorem claims_stopServer : state.stopServer.2.claims = state.claims := by
  rw [stopServer]
  split <;> rfl

theorem exact_new (serverAddress : String)
    (serviceConfigs : ConfigStore ServiceConfigData)
    (clientConfigs : ConfigStore ClientConfigData) :
    (new serverAddress serviceConfigs clientConfigs).Exact :=
  ⟨Tunnels.exact_new, Tunnels.exact_new, fun _ htask => (nomatch htask),
    fun _ htask => (nomatch htask)⟩

/-- `save_service_config` changes the stored configurations and nothing else. -/
theorem saveServiceConfig_cases (state : PbMapperState) (commit : RegisterCommit)
    (io : ConfigIo ServiceConfigData) :
    ∃ file, (state.saveServiceConfig commit io).2 =
        { state with serviceConfigs := file } ∧
      ((state.saveServiceConfig commit io).1 = .ok () ↔ io.write.succeeds = true) := by
  refine ⟨_, rfl, ?_⟩
  simp only [saveServiceConfig, ConfigIo.saveServices, ConfigIo.save]
  cases io.write <;> simp [ConfigWrite.succeeds]

/-- What `finish_register` comes to: the tunnel is started again, or it is stopped
and the configuration is not written. -/
theorem finishRegister_cases (state : PbMapperState) (commit : RegisterCommit)
    (io : ConfigIo ServiceConfigData) :
    (io.write.succeeds = true ∧ ∃ file task pin info, task.handle = state.spawned ∧
      task.key = commit.serviceKey ∧ state.finishRegister commit io = (.ok (),
        { state with
          services :=
            (state.services.abortRuntime commit.serviceKey).2.start task pin info
          serviceConfigs := file
          spawned := state.spawned + 1 })) ∨
    (io.write.succeeds = false ∧ ∃ error file,
      state.finishRegister commit io = (.error error,
        { state with
          services := (state.services.abortRuntime commit.serviceKey).2
          serviceConfigs := file })) := by
  obtain ⟨file, hfile, hresult⟩ := saveServiceConfig_cases
    { state with services := (state.services.abortRuntime commit.serviceKey).2 }
    commit io
  rw [finishRegister]
  dsimp only
  rcases hsaved : saveServiceConfig
      { state with services := (state.services.abortRuntime commit.serviceKey).2 }
      commit io with ⟨error | ⟨⟩, last⟩ <;> rw [hsaved] at hfile hresult
  · obtain rfl : last = _ := hfile
    have hfails : io.write.succeeds = false := by
      rw [Bool.eq_false_iff]
      intro hsucceeds
      cases hresult.mpr hsucceeds
    exact .inr ⟨hfails, _, file, rfl⟩
  · obtain rfl : last = _ := hfile
    exact .inl ⟨hresult.mp rfl, file,
      ⟨state.spawned, commit.serviceKey, registerTunnel commit⟩,
      ⟨commit.credential, commit.remoteSockAddr⟩, _, rfl, rfl, rfl⟩

/-- What `finish_connect` comes to, whether its configuration is written or not. -/
theorem finishConnect_eq (state : PbMapperState) (commit : ConnectCommit)
    (io : ConfigIo ClientConfigData) :
    ∃ file task pin info, task.handle = state.spawned ∧
      task.key = commit.serviceKey ∧ state.finishConnect commit io = (.ok (),
        { state with
          clients :=
            (state.clients.abortRuntime commit.serviceKey).2.start task pin info
          clientConfigs := file
          spawned := state.spawned + 1 }) :=
  ⟨_, ⟨state.spawned, commit.serviceKey, connectTunnel commit⟩,
    ⟨commit.credential, commit.remoteSockAddr⟩, _, rfl, rfl, rfl⟩

/-- The handles of a restarted side are below the next one. -/
theorem spawned_restart {Info : Type} {tunnels : Tunnels Info} {task : TunnelTask}
    {pin : PinnedTunnel} {info : Info} {spawned : JoinHandle}
    (hspawned : ∀ task ∈ tunnels.tasks, task.handle < spawned)
    (hhandle : task.handle = spawned) :
    ∀ other ∈ ((tunnels.abortRuntime task.key).2.start task pin info).tasks,
      other.handle < spawned + 1 := by
  have hfree : task.key ∉ (tunnels.abortRuntime task.key).2.runtime := by
    rw [Tunnels.mem_abortRuntime]
    exact fun hmem => hmem.1 rfl
  intro other hother
  rw [Tunnels.start_of_free hfree, List.mem_append, List.mem_singleton] at hother
  rcases hother with hother | rfl
  · have hbefore := Tunnels.tasks_abortRuntime_subset hother
    exact Nat.lt_succ_of_lt (hspawned other hbefore)
  · rw [hhandle]
    exact Nat.lt_succ_self _

theorem claimRegistering_eq_ok {key : ServiceKey} {claimed : PbMapperState}
    (hclaim : state.claimRegistering key = .ok claimed) :
    key ∉ state.registering ∧
      claimed = { state with registering := key :: state.registering } := by
  rw [claimRegistering, claimKey] at hclaim
  split at hclaim
  · cases hclaim
  · rename_i hfree
    cases hclaim
    exact ⟨hfree, rfl⟩

theorem claimConnecting_eq_ok {key : ServiceKey} {claimed : PbMapperState}
    (hclaim : state.claimConnecting key = .ok claimed) :
    key ∉ state.connecting ∧
      claimed = { state with connecting := key :: state.connecting } := by
  rw [claimConnecting, claimKey] at hclaim
  split at hclaim
  · cases hclaim
  · rename_i hfree
    cases hclaim
    exact ⟨hfree, rfl⟩

/-- A commit whose configuration is written, or whose key has no tunnel, keeps the
books. -/
theorem Exact.finishRegister (hexact : state.Exact) (commit : RegisterCommit)
    (io : ConfigIo ServiceConfigData)
    (hsound : io.write.succeeds = true ∨ commit.serviceKey ∉ state.services.runtime) :
    (state.finishRegister commit io).2.Exact := by
  rcases finishRegister_cases state commit io with
    ⟨-, file, task, pin, info, hhandle, hkey, heq⟩ | ⟨hfails, error, file, heq⟩
  · rw [heq, ← hkey]
    refine ⟨?_, hexact.clients, spawned_restart hexact.servicesSpawned hhandle, ?_⟩
    · apply hexact.services.restart
      intro other hother
      rw [hhandle]
      exact (hexact.servicesSpawned other hother).ne
    · exact fun other hother => Nat.lt_succ_of_lt (hexact.clientsSpawned other hother)
  · have hfree : commit.serviceKey ∉ state.services.runtime := by
      apply hsound.resolve_left
      rw [hfails]
      exact Bool.false_ne_true
    rw [heq, Tunnels.abortRuntime_of_free hfree]
    exact ⟨hexact.services, hexact.clients, hexact.servicesSpawned,
      hexact.clientsSpawned⟩

theorem Exact.finishConnect (hexact : state.Exact) (commit : ConnectCommit)
    (io : ConfigIo ClientConfigData) :
    (state.finishConnect commit io).2.Exact := by
  obtain ⟨file, task, pin, info, hhandle, hkey, heq⟩ := finishConnect_eq state commit io
  rw [heq, ← hkey]
  refine ⟨hexact.services, ?_, ?_, spawned_restart hexact.clientsSpawned hhandle⟩
  · apply hexact.clients.restart
    intro other hother
    rw [hhandle]
    exact (hexact.clientsSpawned other hother).ne
  · exact fun other hother => Nat.lt_succ_of_lt (hexact.servicesSpawned other hother)

/-- The service of a key is stopped and not listed any more. -/
theorem Exact.stopService (hexact : state.Exact) (key : ServiceKey)
    (file : ConfigStore ServiceConfigData) :
    ({ state with
      services := (state.services.abortRuntime key).2.unlist key
      serviceConfigs := file } : PbMapperState).Exact :=
  ⟨hexact.services.stop key, hexact.clients,
    fun task htask => hexact.servicesSpawned task
      (Tunnels.tasks_abortRuntime_subset htask),
    hexact.clientsSpawned⟩

theorem Exact.stopClient (hexact : state.Exact) (key : ServiceKey)
    (file : ConfigStore ClientConfigData) :
    ({ state with
      clients := (state.clients.abortRuntime key).2.unlist key
      clientConfigs := file } : PbMapperState).Exact :=
  ⟨hexact.services, hexact.clients.stop key, hexact.servicesSpawned,
    fun task htask => hexact.clientsSpawned task
      (Tunnels.tasks_abortRuntime_subset htask)⟩

/-- A key that is not listed has no task to abort. -/
theorem Exact.unregisterService (hexact : state.Exact) (key : ServiceKey) :
    (state.unregisterService key).2.Exact := by
  rw [PbMapperState.unregisterService]
  dsimp only
  split
  · exact hexact.stopService key state.serviceConfigs
  · rename_i hunlisted
    rw [Tunnels.listing_abortRuntime, AList.lookup_eq_none, hexact.services.listed]
      at hunlisted
    rw [Tunnels.abortRuntime_of_free hunlisted]
    exact hexact

theorem Exact.disconnectService (hexact : state.Exact) (key : ServiceKey) :
    (state.disconnectService key).2.Exact := by
  rw [PbMapperState.disconnectService]
  dsimp only
  split <;> exact hexact.stopClient key state.clientConfigs

theorem Exact.startServer (hexact : state.Exact) (started : Except CtlError Unit) :
    (state.startServer started).2.Exact := by
  rw [PbMapperState.startServer.eq_def]
  split
  · exact hexact
  · cases started with
    | ok value =>
        exact ⟨hexact.services, hexact.clients, hexact.servicesSpawned,
          hexact.clientsSpawned⟩
    | error error => exact hexact

theorem Exact.stopServer (hexact : state.Exact) : state.stopServer.2.Exact := by
  rw [PbMapperState.stopServer]
  split
  · refine ⟨hexact.services.drain, hexact.clients.drain, ?_, ?_⟩
    · exact fun task htask =>
        hexact.servicesSpawned task (List.mem_of_mem_filter htask)
    · exact fun task htask =>
        hexact.clientsSpawned task (List.mem_of_mem_filter htask)
  · exact hexact

end PbMapperState

/-! ## The application -/

namespace Application

/-- The key that a call registers. -/
def registersAt (app : Application) : CallId → Option ServiceKey :=
  Claims.heldKey Call.registers app.calls

def connectsAt (app : Application) : CallId → Option ServiceKey :=
  Claims.heldKey Call.connects app.calls

/-- The books are exact: every task that runs is the one of its key, the listings
show the keys of the maps, and the claims are those of the calls. -/
structure Exact (app : Application) : Prop where
  services : app.state.services.Exact
  clients : app.state.clients.Exact
  registering : Claims.Held app.state.registering app.registersAt
  connecting : Claims.Held app.state.connecting app.connectsAt

/-- The maps, the tasks that run and the listings. -/
def bookkeeping (app : Application) : Tunnels ServiceInfo × Tunnels ConnectionInfo :=
  (app.state.services, app.state.clients)

/-- The call of this phase will return `Ok`. -/
def succeeds (app : Application) : Event → Bool
  | .finishRegister id _ | .finishConnect id _ =>
      match (app.calls.lookup id).bind Call.result with
      | some (.ok ()) => true
      | some (.error _) | none => false
  | _ => false

/-- A phase of a call changes no tunnels, unless the call has succeeded by it. -/
def AtomicOnError (app : Application) (event : Event) (next : Application) :
    Prop :=
  event.isPhase = true → next.succeeds event = false →
    next.bookkeeping = app.bookkeeping

/-- A registration does not lose the write of its configuration while its key has a
tunnel. -/
def isSound (app : Application) : Event → Bool
  | .finishRegister id io =>
      match app.calls.lookup id with
      | some (.register _ (.committing commit)) =>
          io.write.succeeds ||
            !(app.state.services.runtime.lookup commit.serviceKey).isSome
      | _ => true
  | _ => true

/-- The steps under which the books are kept. -/
def Sound (app : Application) (event : Event) : Prop := app.isSound event = true

instance (app : Application) (event : Event) : Decidable (app.Sound event) :=
  inferInstanceAs (Decidable (_ = true))

/-- What the steps keep. -/
structure Coherent (app : Application) : Prop where
  state : app.state.Exact
  registering : Claims.Held app.state.registering app.registersAt
  connecting : Claims.Held app.state.connecting app.connectsAt
  fresh : ∀ id, (app.calls.lookup id).isSome → id < app.nextCall

variable {app next : Application} {event : Event}

theorem Coherent.exact (hcoherent : app.Coherent) : app.Exact :=
  ⟨hcoherent.state.services, hcoherent.state.clients, hcoherent.registering,
    hcoherent.connecting⟩

theorem coherent_new (serverAddress : String)
    (serviceConfigs : ConfigStore ServiceConfigData)
    (clientConfigs : ConfigStore ClientConfigData) :
    (new serverAddress serviceConfigs clientConfigs).Coherent where
  state := PbMapperState.exact_new ..
  registering := .empty
  connecting := .empty
  fresh _ hsome := nomatch hsome

/-! ### The phases of a call -/

/-- A call that goes on with its claim. -/
theorem Coherent.setCall (hcoherent : app.Coherent) {id : CallId}
    {call after : Call} (hlookup : app.calls.lookup id = some call)
    (hregisters : after.registers = call.registers)
    (hconnects : after.connects = call.connects) :
    (app.setCall id after).Coherent where
  state := hcoherent.state
  registering := by
    change Claims.Held _ (Claims.heldKey _ (app.calls.insert id after))
    rw [Claims.heldKey_insert_self hlookup hregisters]
    exact hcoherent.registering
  connecting := by
    change Claims.Held _ (Claims.heldKey _ (app.calls.insert id after))
    rw [Claims.heldKey_insert_self hlookup hconnects]
    exact hcoherent.connecting
  fresh other hsome := by
    change ((app.calls.insert id after).lookup other).isSome at hsome
    rw [Table.lookup_insert] at hsome
    split at hsome
    · rename_i heq
      apply hcoherent.fresh
      rw [heq, hlookup]
      rfl
    · exact hcoherent.fresh other hsome

/-- The books of another state behind the same claims. -/
theorem Coherent.withState (hcoherent : app.Coherent) {state : PbMapperState}
    (hexact : state.Exact) (hclaims : state.claims = app.state.claims) :
    ({ app with state } : Application).Coherent := by
  obtain ⟨hregistering, hconnecting⟩ := Prod.mk.inj hclaims
  constructor
  · exact hexact
  · change Claims.Held state.registering _
    rw [hregistering]
    exact hcoherent.registering
  · change Claims.Held state.connecting _
    rw [hconnecting]
    exact hcoherent.connecting
  · exact hcoherent.fresh

theorem Coherent.nextCall (hcoherent : app.Coherent) :
    app.calls.lookup app.nextCall = none := by
  rw [← Option.not_isSome_iff_eq_none]
  exact fun hsome => Nat.lt_irrefl _ (hcoherent.fresh _ hsome)

theorem Coherent.fresh_insert (hcoherent : app.Coherent) {call : Call}
    {id : CallId}
    (hsome : ((app.calls.insert app.nextCall call).lookup id).isSome) :
    id < app.nextCall + 1 := by
  rw [Table.lookup_insert] at hsome
  split at hsome
  · rename_i heq
    rw [heq]
    exact Nat.lt_succ_self _
  · exact Nat.lt_succ_of_lt (hcoherent.fresh id hsome)

theorem Coherent.fresh_erase (hcoherent : app.Coherent) {id other : CallId}
    (hsome : ((app.calls.erase id).lookup other).isSome) :
    other < app.nextCall := by
  rw [Table.lookup_erase] at hsome
  split at hsome
  · cases hsome
  · exact hcoherent.fresh other hsome

/-- `register_service` begins. -/
theorem Coherent.beginRegister (hcoherent : app.Coherent) (args : RegisterArgs)
    {state : PbMapperState}
    (hclaim : app.state.claimRegistering args.serviceKey = .ok state)
    (phase : Phase RegisterCommit) :
    let next : Application :=
      { state
        calls := app.calls.insert app.nextCall (.register args phase)
        nextCall := app.nextCall + 1 }
    next.Coherent ∧ next.bookkeeping = app.bookkeeping := by
  obtain ⟨hfree, rfl⟩ := PbMapperState.claimRegistering_eq_ok hclaim
  have hnone := hcoherent.nextCall
  refine ⟨⟨?_, ?_, ?_, fun _ => hcoherent.fresh_insert⟩, rfl⟩
  · exact ⟨hcoherent.state.services, hcoherent.state.clients,
      hcoherent.state.servicesSpawned, hcoherent.state.clientsSpawned⟩
  · change Claims.Held _ (Claims.heldKey _ (app.calls.insert _ _))
    rw [Claims.heldKey_insert]
    apply hcoherent.registering.claim _ hfree
    rw [registersAt, Claims.heldKey, hnone]
    rfl
  · change Claims.Held _ (Claims.heldKey _ (app.calls.insert _ _))
    rw [Claims.heldKey_insert_none hnone rfl]
    exact hcoherent.connecting

/-- `connect_service` begins. -/
theorem Coherent.beginConnect (hcoherent : app.Coherent) (args : ConnectArgs)
    {state : PbMapperState}
    (hclaim : app.state.claimConnecting args.serviceKey = .ok state)
    (phase : Phase ConnectCommit) :
    let next : Application :=
      { state
        calls := app.calls.insert app.nextCall (.connect args phase)
        nextCall := app.nextCall + 1 }
    next.Coherent ∧ next.bookkeeping = app.bookkeeping := by
  obtain ⟨hfree, rfl⟩ := PbMapperState.claimConnecting_eq_ok hclaim
  have hnone := hcoherent.nextCall
  refine ⟨⟨?_, ?_, ?_, fun _ => hcoherent.fresh_insert⟩, rfl⟩
  · exact ⟨hcoherent.state.services, hcoherent.state.clients,
      hcoherent.state.servicesSpawned, hcoherent.state.clientsSpawned⟩
  · change Claims.Held _ (Claims.heldKey _ (app.calls.insert _ _))
    rw [Claims.heldKey_insert_none hnone rfl]
    exact hcoherent.registering
  · change Claims.Held _ (Claims.heldKey _ (app.calls.insert _ _))
    rw [Claims.heldKey_insert]
    apply hcoherent.connecting.claim _ hfree
    rw [connectsAt, Claims.heldKey, hnone]
    rfl

/-- A call returns, and its claim is dropped. -/
theorem Coherent.release (hcoherent : app.Coherent) {id : CallId}
    (hrelease : app.release id = some next) :
    next.Coherent ∧ next.bookkeeping = app.bookkeeping := by
  rw [Application.release] at hrelease
  dsimp only at hrelease
  split at hrelease
  · rename_i args _ hlookup
    cases hrelease
    refine ⟨⟨?_, ?_, ?_, fun _ => hcoherent.fresh_erase⟩, rfl⟩
    · exact ⟨hcoherent.state.services, hcoherent.state.clients,
        hcoherent.state.servicesSpawned, hcoherent.state.clientsSpawned⟩
    · change Claims.Held _ (Claims.heldKey _ (app.calls.erase _))
      rw [Claims.heldKey_erase]
      apply hcoherent.registering.release
      rw [registersAt, Claims.heldKey, hlookup]
      rfl
    · change Claims.Held _ (Claims.heldKey _ (app.calls.erase _))
      rw [Claims.heldKey_erase_none hlookup rfl]
      exact hcoherent.connecting
  · rename_i args _ hlookup
    cases hrelease
    refine ⟨⟨?_, ?_, ?_, fun _ => hcoherent.fresh_erase⟩, rfl⟩
    · exact ⟨hcoherent.state.services, hcoherent.state.clients,
        hcoherent.state.servicesSpawned, hcoherent.state.clientsSpawned⟩
    · change Claims.Held _ (Claims.heldKey _ (app.calls.erase _))
      rw [Claims.heldKey_erase_none hlookup rfl]
      exact hcoherent.registering
    · change Claims.Held _ (Claims.heldKey _ (app.calls.erase _))
      rw [Claims.heldKey_erase]
      apply hcoherent.connecting.release
      rw [connectsAt, Claims.heldKey, hlookup]
      rfl
  · cases hrelease

/-- The slow steps. -/
theorem Coherent.resolve (hcoherent : app.Coherent) {id : CallId} {io : SlowIo}
    (hresolve : app.resolve id io = some next) :
    next.Coherent ∧ next.bookkeeping = app.bookkeeping := by
  rw [Application.resolve] at hresolve
  split at hresolve
  · rename_i hlookup
    cases hresolve
    exact ⟨hcoherent.setCall hlookup rfl rfl, rfl⟩
  · rename_i hlookup
    cases hresolve
    exact ⟨hcoherent.setCall hlookup rfl rfl, rfl⟩
  · cases hresolve

theorem lookup_setCall (app : Application) (id : CallId) (call : Call) :
    (app.setCall id call).calls.lookup id = some call := by
  rw [setCall, Table.lookup_insert, if_pos rfl]

theorem sound_finishRegister {id : CallId} {io : ConfigIo ServiceConfigData}
    {args : RegisterArgs} {commit : RegisterCommit}
    (hlookup : app.calls.lookup id = some (.register args (.committing commit))) :
    app.Sound (.finishRegister id io) ↔
      io.write.succeeds = true ∨ commit.serviceKey ∉ app.state.services.runtime := by
  rw [Sound, isSound, hlookup]
  dsimp only
  rw [Bool.or_eq_true, Bool.not_eq_true', Bool.eq_false_iff, ne_eq,
    AList.lookup_isSome]

/-- The commit of a registration that fails leaves the tunnels as they were. -/
theorem Coherent.finishRegister (hcoherent : app.Coherent) {id : CallId}
    {io : ConfigIo ServiceConfigData} (hsound : app.Sound (.finishRegister id io))
    (hfinish : app.finishRegister id io = some next) :
    next.Coherent ∧ (next.succeeds (.finishRegister id io) = false →
      next.bookkeeping = app.bookkeeping) := by
  rw [Application.finishRegister] at hfinish
  split at hfinish
  · rename_i args commit hlookup
    have hcommit := (sound_finishRegister hlookup).mp hsound
    have hexact := hcoherent.state.finishRegister commit io hcommit
    rcases PbMapperState.finishRegister_cases app.state commit io with
      ⟨-, file, task, pin, info, -, -, heq⟩ | ⟨hfails, error, file, heq⟩
    · rw [heq] at hexact hfinish
      cases hfinish
      refine ⟨(hcoherent.withState hexact rfl).setCall hlookup rfl rfl, ?_⟩
      intro hnot
      rw [succeeds, lookup_setCall] at hnot
      cases hnot
    · rw [heq] at hexact hfinish
      cases hfinish
      refine ⟨(hcoherent.withState hexact rfl).setCall hlookup rfl rfl, ?_⟩
      intro _
      have hfree : commit.serviceKey ∉ app.state.services.runtime := by
        apply hcommit.resolve_left
        rw [hfails]
        exact Bool.false_ne_true
      change ((app.state.services.abortRuntime commit.serviceKey).2,
        app.state.clients) = _
      rw [Tunnels.abortRuntime_of_free hfree]
      rfl
  · cases hfinish

/-- The commit of a connection succeeds. -/
theorem Coherent.finishConnect (hcoherent : app.Coherent) {id : CallId}
    {io : ConfigIo ClientConfigData}
    (hfinish : app.finishConnect id io = some next) :
    next.Coherent ∧ next.succeeds (.finishConnect id io) = true := by
  rw [Application.finishConnect] at hfinish
  split at hfinish
  · rename_i args commit hlookup
    have hexact := hcoherent.state.finishConnect commit io
    obtain ⟨file, task, pin, info, -, -, heq⟩ :=
      PbMapperState.finishConnect_eq app.state commit io
    rw [heq] at hexact hfinish
    cases hfinish
    refine ⟨(hcoherent.withState hexact rfl).setCall hlookup rfl rfl, ?_⟩
    rw [succeeds, lookup_setCall]
    rfl
  · cases hfinish

/-! ### Steps -/

/-- A sound step keeps the books, and a failing call leaves them as they were. -/
theorem Coherent.step (hcoherent : app.Coherent) (hsound : app.Sound event)
    (hstep : app.step event = some next) :
    next.Coherent ∧ app.AtomicOnError event next := by
  cases event with
  | register args credential =>
      cases hstep
      rw [begin.eq_def]
      split
      · rename_i hclaim
        obtain ⟨hnext, hsame⟩ := hcoherent.beginRegister args hclaim _
        exact ⟨hnext, fun _ _ => hsame⟩
      · exact ⟨hcoherent, fun _ _ => rfl⟩
      · exact ⟨hcoherent, fun _ _ => rfl⟩
  | connect args credential =>
      cases hstep
      rw [begin.eq_def]
      split
      · rename_i hclaim
        obtain ⟨hnext, hsame⟩ := hcoherent.beginConnect args hclaim _
        exact ⟨hnext, fun _ _ => hsame⟩
      · exact ⟨hcoherent, fun _ _ => rfl⟩
      · exact ⟨hcoherent, fun _ _ => rfl⟩
  | resolve id io =>
      obtain ⟨hnext, hsame⟩ := hcoherent.resolve hstep
      exact ⟨hnext, fun _ _ => hsame⟩
  | finishRegister id io =>
      obtain ⟨hnext, hsame⟩ := hcoherent.finishRegister hsound hstep
      exact ⟨hnext, fun _ => hsame⟩
  | finishConnect id io =>
      obtain ⟨hnext, hsucceeds⟩ := hcoherent.finishConnect hstep
      refine ⟨hnext, fun _ hnot => ?_⟩
      rw [hsucceeds] at hnot
      cases hnot
  | release id =>
      obtain ⟨hnext, hsame⟩ := hcoherent.release hstep
      exact ⟨hnext, fun _ _ => hsame⟩
  | unregisterService key =>
      cases hstep
      exact ⟨hcoherent.withState (hcoherent.state.unregisterService key)
        (PbMapperState.claims_unregisterService key),
        fun hphase => nomatch hphase⟩
  | disconnectService key =>
      cases hstep
      exact ⟨hcoherent.withState (hcoherent.state.disconnectService key)
        (PbMapperState.claims_disconnectService key),
        fun hphase => nomatch hphase⟩
  | deleteServiceConfigAndStop key io =>
      cases hstep
      exact ⟨hcoherent.withState (hcoherent.state.stopService key _) rfl,
        fun hphase => nomatch hphase⟩
  | deleteClientConfigAndStop key io =>
      cases hstep
      exact ⟨hcoherent.withState (hcoherent.state.stopClient key _) rfl,
        fun hphase => nomatch hphase⟩
  | startServer started =>
      cases hstep
      exact ⟨hcoherent.withState (hcoherent.state.startServer started)
        (PbMapperState.claims_startServer started),
        fun hphase => nomatch hphase⟩
  | stopServer =>
      cases hstep
      exact ⟨hcoherent.withState hcoherent.state.stopServer
        PbMapperState.claims_stopServer,
        fun hphase => nomatch hphase⟩
  | configure serverAddress serviceConfigs clientConfigs =>
      cases hstep
      have hexact := hcoherent.state
      exact ⟨hcoherent.withState ⟨hexact.services, hexact.clients,
        hexact.servicesSpawned, hexact.clientsSpawned⟩ rfl,
        fun hphase => nomatch hphase⟩

/-- The commit that is not sound stops a tunnel that stays listed, and its call
fails. -/
theorem Exact.broken (hexact : app.Exact) (hunsound : ¬ app.Sound event)
    (hstep : app.step event = some next) :
    ¬ next.Exact ∧ ¬ app.AtomicOnError event next := by
  cases event with
  | finishRegister id io =>
      change app.finishRegister id io = some next at hstep
      rw [Application.finishRegister] at hstep
      split at hstep
      · rename_i args commit hlookup
        rw [sound_finishRegister hlookup, not_or, not_not] at hunsound
        obtain ⟨hfails, hmem⟩ := hunsound
        rcases PbMapperState.finishRegister_cases app.state commit io with
          ⟨hsucceeds, -⟩ | ⟨-, error, file, heq⟩
        · exact absurd hsucceeds hfails
        · rw [heq] at hstep
          cases hstep
          have hstopped : commit.serviceKey ∉
              (app.state.services.abortRuntime commit.serviceKey).2.runtime := by
            rw [Tunnels.mem_abortRuntime]
            exact fun hstays => hstays.1 rfl
          constructor
          · intro hnext
            apply hstopped
            apply (hnext.services.listed commit.serviceKey).mp
            change commit.serviceKey ∈
              (app.state.services.abortRuntime commit.serviceKey).2.listing
            rw [Tunnels.listing_abortRuntime, hexact.services.listed]
            exact hmem
          · intro hatomic
            have hsame := hatomic rfl (by rw [succeeds, lookup_setCall]; rfl)
            have hservices : (app.state.services.abortRuntime commit.serviceKey).2 =
                app.state.services := (Prod.mk.inj hsame).1
            rw [hservices] at hstopped
            exact hstopped hmem
      · cases hstep
  | _ => exact absurd rfl hunsound

/-! ## Runs -/

theorem coherent_of_reachable (hreach : (system.restrict Sound).Reachable app) :
    app.Coherent := by
  apply hreach.invariant
  · rintro _ ⟨serverAddress, serviceConfigs, clientConfigs, rfl⟩
    exact coherent_new ..
  · rintro before event after hbefore ⟨hsound, hstep⟩
    exact (hbefore.step hsound hstep).1

/-- In a run whose commits of registrations all write their configuration, or find no
tunnel under their key, the books are exact and every call that fails leaves them as
they were; and the first other commit breaks both. -/
theorem exact_iff_sound (hreach : (system.restrict Sound).Reachable app)
    (hstep : app.step event = some next) :
    app.Exact ∧ (next.Exact ↔ app.Sound event) ∧
      (app.AtomicOnError event next ↔ app.Sound event) := by
  have hcoherent := coherent_of_reachable hreach
  have hkept := fun hsound => hcoherent.step hsound hstep
  have hbroken := fun hunsound => hcoherent.exact.broken hunsound hstep
  refine ⟨hcoherent.exact, ⟨?_, ?_⟩, ⟨?_, ?_⟩⟩
  · intro hnext
    by_contra hunsound
    exact (hbroken hunsound).1 hnext
  · exact fun hsound => (hkept hsound).1.exact
  · intro hatomic
    by_contra hunsound
    exact (hbroken hunsound).2 hatomic
  · exact fun hsound => (hkept hsound).2

/-! ### A service that is registered again -/

section Sample

def sampleArgs : RegisterArgs := ⟨['h'], "127.0.0.1:80", "TCP", false, false⟩

def sampleSlowIo : SlowIo :=
  ⟨.ok ⟨[127, 0, 0, 1], 80⟩, .ok ⟨[127, 0, 0, 1], 7666⟩, .ok ()⟩

def sampleConfigIo (write : ConfigWrite ServiceConfigData) :
    ConfigIo ServiceConfigData := ⟨true, 0, write⟩

/-- A call up to its commit. -/
def registration (id : CallId) : List Event :=
  [.register sampleArgs (.ok (.admin (.replicate 32 0))), .resolve id sampleSlowIo]

/-- A registration, then another one of its key up to its commit. -/
def registrations : List Event :=
  registration 0 ++ [.finishRegister 0 (sampleConfigIo .written), .release 0] ++
    registration 1

def writtenAgain : Event := .finishRegister 1 (sampleConfigIo .written)

def notWrittenAgain : Event := .finishRegister 1 (sampleConfigIo (.noDir "read-only"))

def play (events : List Event) : Option Application :=
  events.foldlM (Transition.System.checked Sound step) (new "relay:7666" ∅ ∅)

theorem reachable_play {events : List Event} (hplay : play events = some app) :
    (system.restrict Sound).Reachable app :=
  Transition.System.reachable_of_foldlM Transition.System.checked_sound
    ⟨_, _, _, rfl⟩ hplay

theorem exact_iff_sound_sample : ∃ app next : Application,
    app.step writtenAgain = some next ∧
      app.Exact ∧ next.Exact := by
  have hrun : ((play registrations).bind fun app =>
      (app.step writtenAgain).map fun _ =>
        app.isSound writtenAgain) = some true := by
    decide +kernel
  obtain ⟨app, hplay, hlast⟩ := Option.bind_eq_some_iff.mp hrun
  obtain ⟨next, hstep, hsound⟩ := Option.map_eq_some_iff.mp hlast
  obtain ⟨happ, hnext, -⟩ := exact_iff_sound (reachable_play hplay) hstep
  exact ⟨app, next, hstep, happ, hnext.mpr hsound⟩

/-- The configuration of the second registration cannot be written: the call fails,
the first tunnel is gone and its service is still listed. -/
theorem failed_registration_stops_tunnel : ∃ app next : Application,
    system.Reachable app ∧
      app.step notWrittenAgain = some next ∧
      next.succeeds notWrittenAgain = false ∧
      app.state.services.tasks.length = 1 ∧ next.state.services.tasks = [] ∧
      ¬ next.Exact ∧
      ¬ app.AtomicOnError notWrittenAgain
        next := by
  have hrun : ((play registrations).bind fun app =>
      (app.step notWrittenAgain).map fun next =>
        (app.isSound notWrittenAgain,
          next.succeeds notWrittenAgain,
          app.state.services.tasks.length, next.state.services.tasks.length)) =
      some (false, false, 1, 0) := by
    decide +kernel
  obtain ⟨app, hplay, hlast⟩ := Option.bind_eq_some_iff.mp hrun
  obtain ⟨next, hstep, hvalues⟩ := Option.map_eq_some_iff.mp hlast
  obtain ⟨hunsound, hfails, hbefore, hafter⟩ : _ ∧ _ ∧ _ ∧ _ := by
    simpa only [Prod.mk.injEq] using hvalues
  have hreach := reachable_play hplay
  have hexact := (coherent_of_reachable hreach).exact
  have hbroken := hexact.broken (ne_true_of_eq_false hunsound) hstep
  have hlarger : system.Reachable app := by
    apply Transition.System.Reachable.mono _ _ hreach
    · exact fun _ hstart => hstart
    · rintro _ _ _ ⟨-, hafter⟩
      exact hafter
  exact ⟨app, next, hlarger, hstep, hfails, hbefore, List.length_eq_zero_iff.mp hafter,
    hbroken⟩

end Sample

end Application

end PbMapper.App

import PbMapper.Auth.Authority

/-!
# Requests of administrators

Requests run in tasks of their own.  A command goes through the channel of the
actor and is executed under the authority it was sent with.  A query of the relay
inventory goes to the routing manager, and races the cancellation of its lease.

A rotation publishes the new root and its lease first and cancels the old lease
after that; other tasks may run in between.
-/

namespace PbMapper.Auth

open PbMapper.Core MachineWord Effect

/-! ## Authorization -/

/-- `AuthContext::require_admin`. -/
def AuthContext.requireAdmin (context : AuthContext) : Except AuthFailure Unit :=
  if context.isAdmin then .ok ()
  else
    .error ⟨"admin_permission_required",
      "administrator credential is required for this operation", false⟩

/-- A rotation that is published and not settled.  The actor owns the old lease
until then. -/
structure Rotation where
  oldLease : LeaseId
  startedAt : ℕ
  newKey : AesKeyType

namespace AuthMemory

variable (memory : AuthMemory) (rotation : Option Rotation)

/-- `AuthContext::ensure_active` for an administrator, whose lease has no
expiry. -/
def ensureAdminActive (context : AuthContext) : Except AuthFailure LeaseId :=
  let owned := (memory.upgrade (some context.lease)).isSome ||
    rotation.any (·.oldLease = context.lease)
  match owned, memory.lease? context.lease with
  | true, some lease =>
      if lease.cancelled then
        .error (cancelledLeaseFailure context.isAdmin lease)
      else .ok context.lease
  | _, _ =>
      .error (administratorKeyRotated "credential lease is no longer active")

/-- `AuthContext::admin_authority`, and `AuthContext::admin_cancellation_token`:
the token is that of the lease. -/
def adminAuthority (context : AuthContext) : Except AuthFailure LeaseId := do
  context.requireAdmin
  memory.ensureAdminActive rotation context

/-- `cancelled_authorization`. -/
def cancelledAuthorization (context : AuthContext) : AuthFailure :=
  match memory.ensureAdminActive rotation context with
  | .error failure => failure
  | .ok _ =>
      administratorKeyRotated
        "administrator credential lease was cancelled during the inventory query"

variable {memory}

end AuthMemory

/-! ## Inventory queries -/

/-- What a channel of the manager says when it is polled. -/
inductive ChannelPoll (Value : Type) where
  | pending
  | closed
  | ready (value : Value)

/-- Where `query_inventory` stands.  A `select!` polls the cancellation first and
its channel after that. -/
inductive QueryPhase (Page : Type) where
  | opened
  | sending (polled : Bool)
  | receiving (polled : Bool)
  | revalidating (page : Page)
  | finished (result : Except AuthFailure Page)
deriving DecidableEq

structure InventoryQuery (Page : Type) where
  context : AuthContext
  inventory : String
  phase : QueryPhase Page
deriving DecidableEq

def managerUnavailable (message : String) : AuthFailure :=
  ⟨"server_state_unavailable", message, true⟩

variable {Page : Type}

namespace InventoryQuery

/-- The next moment of `query_inventory`. -/
def advance (query : InventoryQuery Page) (memory : AuthMemory)
    (rotation : Option Rotation) (sent : ChannelPoll Unit)
    (reply : ChannelPoll Page) : QueryPhase Page :=
  match query.phase with
  | .opened =>
      match memory.adminAuthority rotation query.context with
      | .error failure => .finished (.error failure)
      | .ok _ => .sending false
  | .sending false =>
      if memory.isCancelled query.context.lease then
        .finished (.error (memory.cancelledAuthorization rotation query.context))
      else .sending true
  | .sending true =>
      match sent with
      | .pending => .sending false
      | .closed =>
          .finished (.error (managerUnavailable
            "relay connection manager is unavailable"))
      | .ready () => .receiving false
  | .receiving false =>
      if memory.isCancelled query.context.lease then
        .finished (.error (memory.cancelledAuthorization rotation query.context))
      else .receiving true
  | .receiving true =>
      match reply with
      | .pending => .receiving false
      | .closed =>
          .finished (.error (managerUnavailable
            s!"relay connection manager dropped the {query.inventory} query"))
      | .ready page => .revalidating page
  | .revalidating page =>
      match memory.ensureAdminActive rotation query.context with
      | .error failure => .finished (.error failure)
      | .ok _ => .finished (.ok page)
  | .finished result => .finished result

/-- The query is about to check its lease. -/
def checks (query : InventoryQuery Page) : Bool :=
  match query.phase with
  | .opened | .sending false | .receiving false | .revalidating _ => true
  | .sending true | .receiving true | .finished _ => false

end InventoryQuery

/-! ## Rotations in two steps -/

namespace AuthMemory

variable (memory : AuthMemory)

/-- The new root and its lease are in the shared state. -/
def publishRotation (newKey : AesKeyType) (audit : AuditRecord) (now : ℕ) :
    AuthMemory :=
  let memory := ((memory.pushAuditRecord audit).rememberPreviousRoot).wipe now
  let (memory, lease) := memory.allocateLease (.new adminKeyId u64Max)
  memory.updateInner
    ({ · with adminKey := newKey, adminLease := lease, safeMode := false })

/-- The old lease is cancelled, and the admitted mutations are forgotten. -/
def settleRotation (oldLease : LeaseId) : AuthMemory :=
  { recordCancel .rotated memory oldLease with
    adminReplays := ∅
    adminReplayOrder := [] }

end AuthMemory

/-- `actor_rotate_root` as far as the new lease is published, with the old
lease. -/
def actorRotateRootPublish (config : AuthConfig) (clock : Clock)
    (newKey : AesKeyType) : ActorM LeaseId := do
  if newKey = (← getMemory).inner.adminKey then
    refuse ⟨"administrator_key_unchanged",
      "new administrator key must differ from the current key", false⟩
  if !isEnvSafeAdminKey newKey then
    refuse (administratorKeyInvalid envSafeAdminKeyError)
  modifyMemory AuthMemory.bumpRootEpoch
  let memory ← getMemory
  let audit : AuditRecord := ⟨clock 0, "administrator_key_rotate", none, none⟩
  let snapshot :=
    (memory.emptySnapshot memory.inner.instanceId []).pushAudit audit
  unlessInstalled
    (do
      stageAdminKey config.stateDir newKey
      writeSnapshotAndTruncateWal config.stateDir newKey snapshot
      writeAdminKey config.stateDir newKey)
    (rotationAlreadyInstalled newKey)
  onFiles removeNextAdminKey
  let oldLease := (← getMemory).inner.adminLease
  modifyMemory (·.publishRotation newKey audit (clock 1))
  return oldLease

/-- The rest of a rotation, after everything that came before it. -/
def settleEnd : Except Interruption LeaseId × ActorWorld →
    Except Interruption AuthResponse × ActorWorld
  | (.ok oldLease, world) =>
      (.ok .rotated, { world with memory := world.memory.settleRotation oldLease })
  | (.error stop, world) => (.error stop, world)

theorem exec_bind_settleEnd {Value : Type} (first : ActorM Value)
    {next : Value → ActorM AuthResponse} {publish : Value → ActorM LeaseId}
    (hnext : ∀ value world,
      (next value).exec world = settleEnd ((publish value).exec world))
    (world : ActorWorld) :
    (first >>= next).exec world = settleEnd ((first >>= publish).exec world) := by
  rw [exec_bind, exec_bind]
  cases first.exec world with
  | mk result middle =>
      cases result with
      | ok value => exact hnext value middle
      | error stop => rfl

/-- A rotation is settled after it is published. -/
theorem exec_rotateRoot (crypto : AuthCrypto) (config : AuthConfig)
    (env : Surroundings) (newKey : AesKeyType) (world : ActorWorld) :
    (runCommand crypto config env (.rotateRoot newKey)).exec world =
      settleEnd ((actorRotateRootPublish config env.clock newKey).exec world) := by
  rw [runCommand, actorRotateRoot, actorRotateRootPublish]
  simp only [bind_assoc]
  apply exec_bind_settleEnd
  intro read world
  split
  · rfl
  split
  · rfl
  simp only [bind_assoc]
  apply exec_bind_settleEnd
  intro _ world
  apply exec_bind_settleEnd
  intro bumped world
  apply exec_bind_settleEnd
  intro _ world
  apply exec_bind_settleEnd
  intro _ world
  rfl

/-- What a rotation leaves when its new lease is published, and when it fails. -/
theorem actorRotateRootPublish_triple {config : AuthConfig} {memory : AuthMemory}
    {dir : StateDir} (clock : Clock) (newKey : AesKeyType) :
    Triple (At memory dir) (actorRotateRootPublish config clock newKey)
      (fun oldLease world => oldLease = memory.inner.adminLease ∧
        ∃ audit now, world.memory =
          memory.bumpRootEpoch.publishRotation newKey audit now)
      (fun _ world => AuthMemory.Retains memory world.memory) := by
  have hbump : AuthMemory.Retains memory memory.bumpRootEpoch :=
    AuthMemory.retains_aside AuthMemory.aside_bumpRootEpoch
  have hrefuse : ∀ failure (next : PUnit → ActorM LeaseId),
      Triple (At memory dir) (refuse failure >>= next)
        (fun oldLease world => oldLease = memory.inner.adminLease ∧
          ∃ audit now, world.memory =
            memory.bumpRootEpoch.publishRotation newKey audit now)
        (fun _ world => AuthMemory.Retains memory world.memory) := by
    rintro failure next world ⟨rfl, rfl⟩
    exact .refl _
  unfold actorRotateRootPublish
  apply Triple.bind _ getMemory_triple
  intro read
  apply Triple.assume
  rintro rfl
  simp only
  split
  · exact hrefuse _ _
  split
  · exact hrefuse _ _
  apply Triple.bind _ (modifyMemory_triple _)
  intro _
  apply Triple.bind _ getMemory_triple
  intro bumped
  apply Triple.assume
  intro hbumped
  rw [← hbumped] at hbump ⊢
  have hwrites : Writes (rotateWrites newKey
      ((bumped.emptySnapshot bumped.inner.instanceId []).pushAudit
        ⟨clock 0, "administrator_key_rotate", none, none⟩)) (do
    stageAdminKey config.stateDir newKey
    writeSnapshotAndTruncateWal config.stateDir newKey
      ((bumped.emptySnapshot bumped.inner.instanceId []).pushAudit
        ⟨clock 0, "administrator_key_rotate", none, none⟩)
    writeAdminKey config.stateDir newKey) :=
    (writes_stageAdminKey _ _).bind
      ((writes_writeSnapshotAndTruncateWal _ _ _).bind (writes_atomicWrite _ _ _))
  have hcut : ∀ stop (world : ActorWorld),
      ReplaceCut bumped dir (rotateWrites newKey
        ((bumped.emptySnapshot bumped.inner.instanceId []).pushAudit
          ⟨clock 0, "administrator_key_rotate", none, none⟩))
        (·.adminKey = some newKey) ({ · with adminKeyNext := none }) stop
          world.memory world.files.dir → AuthMemory.Retains read world.memory :=
    fun stop world hcut => hbump.trans hcut.retains
  apply Triple.bind _ ((unlessInstalled_triple hwrites
    (rotationAlreadyInstalled_triple newKey) rfl).mono (fun _ => id) (fun _ _ => id)
      hcut)
  intro _
  apply Triple.choose
  intro made
  apply Triple.assume
  rintro -
  apply Triple.bind _ ((onFiles_triple (removeFile_triple _ _)).mono
    (fun _ => id) (fun _ _ => id) ?_)
  · rintro ⟨⟩ world ⟨hmemory, -⟩
    refine ⟨?_, ⟨clock 0, "administrator_key_rotate", none, none⟩, clock 1, ?_⟩
    · rw [hmemory]
      exact hbump.adminLease
    · rw [← hmemory]
  · rintro stop world ⟨hmemory, -⟩
    rw [hmemory]
    exact hbump

theorem executeRotation_triple (config : AuthConfig) {memory : AuthMemory}
    {dir : StateDir} (authority : LeaseId) (clock : Clock) (newKey : AesKeyType) :
    Triple (At memory dir) (do
        orRefuse ((← getMemory).validateAdminAuthority authority)
        actorRotateRootPublish config clock newKey)
      (fun oldLease world => oldLease = memory.inner.adminLease ∧
        ∃ audit now, world.memory =
          memory.bumpRootEpoch.publishRotation newKey audit now)
      (fun _ world => AuthMemory.Retains memory world.memory) := by
  apply Triple.bind _ getMemory_triple
  intro read
  apply Triple.assume
  rintro rfl
  cases read.validateAdminAuthority authority with
  | error failure =>
      rintro world ⟨rfl, rfl⟩
      exact .refl _
  | ok value =>
      apply Triple.bind (fun _ => At read dir) (.pure fun _ => id)
      intro _
      exact actorRotateRootPublish_triple clock newKey

/-! ## The system -/

/-- A command in the channel of the actor. -/
structure QueuedCommand where
  authority : LeaseId
  command : AuthCommand

/-- One server with the requests of its administrators.  `contexts` are the
credentials that were authenticated, `refusals` the answers to commands that did
not get into the channel. -/
structure Administration (Page : Type) where
  history : AuthHistory
  contexts : List AuthContext
  queue : List QueuedCommand
  rotation : Option Rotation
  queries : List (InventoryQuery Page)
  refusals : List AuthFailure

inductive AdminEvent (Page : Type) where
  | start (config : AuthConfig) (env : StartSurroundings)
      (outcomes : List FileOutcome)
  | tick (now : Seconds) (outcomes : List FileOutcome)
  | authenticate (keyId : KeyId) (presentedKey : AesKeyType) (now : Seconds)
  | check (check : CredentialCheck)
  | submit (context : AuthContext) (command : AuthCommand)
  | execute (env : Surroundings) (outcomes : List FileOutcome)
  | settle
  | openQuery (context : AuthContext) (inventory : String)
  | poll (index : ℕ) (sent : ChannelPoll Unit) (reply : ChannelPoll Page)
  | stop

namespace Administration

def initial : Administration Page := ⟨.initial, [], [], none, [], []⟩

/-- The actor publishes a rotation.  A refused one is answered, another one not
yet. -/
def executeRotation (state : Administration Page) (authority : LeaseId)
    (rest : List QueuedCommand) (env : Surroundings)
    (outcomes : List FileOutcome) (newKey : AesKeyType) (server : AuthServer) :
    Administration Page :=
  let ended := Effect.exec (do
    orRefuse ((← getMemory).validateAdminAuthority authority)
    actorRotateRootPublish server.config env.clock newKey)
    ⟨server.memory, ⟨state.history.dir, outcomes⟩⟩
  { state with
    queue := rest
    history := state.history.finish server.config
      (fun answer => match answer with
        | .ok _ => []
        | .error failure =>
            [.answered (env.clock 0) (.rotateRoot newKey) (.error failure)]) ended
    rotation :=
      match ended.1 with
      | .ok oldLease => some ⟨oldLease, env.clock 0, newKey⟩
      | .error _ => none }

variable (crypto : AuthCrypto)

/-- The actor executes the first command of the channel. -/
def execute (state : Administration Page) (queued : QueuedCommand)
    (rest : List QueuedCommand) (env : Surroundings)
    (outcomes : List FileOutcome) : Option (Administration Page) :=
  match queued.command with
  | .rotateRoot newKey => do
      let server ← state.history.server
      return state.executeRotation queued.authority rest env outcomes newKey server
  | command => do
      let history ← state.history.step crypto
        (.command env queued.authority command outcomes)
      return { state with queue := rest, history := history }

/-- The old lease is cancelled and the rotation answered. -/
def settle (state : Administration Page) (rotation : Rotation) :
    Option (Administration Page) := do
  let server ← state.history.server
  return { state with
    rotation := none
    history :=
      { state.history with
        server := some { server with
          memory := server.memory.settleRotation rotation.oldLease }
        records := state.history.records ++
          [.answered rotation.startedAt (.rotateRoot rotation.newKey)
            (.ok .rotated)] } }

def step (state : Administration Page) :
    AdminEvent Page → Option (Administration Page)
  | .start config env outcomes => do
      let history ← state.history.step crypto (.start config env outcomes)
      return ⟨history, [], [], none, [], []⟩
  | .tick now outcomes =>
      match state.rotation with
      | some _ => none
      | none => do
          let history ← state.history.step crypto (.tick now outcomes)
          return { state with history := history }
  | .authenticate keyId presentedKey now => do
      let server ← state.history.server
      let history ← state.history.step crypto
        (.authenticate keyId presentedKey now)
      return { state with
        history := history
        contexts := state.contexts ++ ((server.memory.authenticatePresented crypto
          keyId presentedKey now).1.toOption).toList }
  | .check check => do
      let history ← state.history.step crypto (.check check)
      return { state with history := history }
  | .submit context command => do
      let server ← state.history.server
      if context ∉ state.contexts then none
      else
        match server.memory.adminAuthority state.rotation context with
        | .ok authority =>
            return { state with queue := state.queue ++ [⟨authority, command⟩] }
        | .error failure =>
            return { state with refusals := state.refusals ++ [failure] }
  | .execute env outcomes =>
      match state.rotation, state.queue with
      | none, queued :: rest => state.execute crypto queued rest env outcomes
      | _, _ => none
  | .settle => do state.settle (← state.rotation)
  | .openQuery context inventory => do
      let _ ← state.history.server
      if context ∉ state.contexts then none
      else
        return { state with
          queries := state.queries ++ [⟨context, inventory, .opened⟩] }
  | .poll index sent reply => do
      let server ← state.history.server
      let query ← state.queries[index]?
      return { state with
        queries := state.queries.set index { query with
          phase := query.advance server.memory state.rotation sent reply } }
  | .stop => do
      let history ← state.history.step crypto .stop
      return { state with history := history }

end Administration

/-- The administration of one state directory that was empty once. -/
def adminSystem (crypto : AuthCrypto) (Page : Type) :
    Transition.System (Administration Page) (AdminEvent Page) :=
  .ofPartial (· = .initial) (Administration.step crypto)

/-! ## Cancelled leases -/

/-- What is refused for its authority does nothing. -/
theorem exec_refused {Value : Type} (program : ActorM Value) {world : ActorWorld}
    {authority : LeaseId} {failure : AuthFailure}
    (hinvalid :
      world.memory.validateAdminAuthority authority = .error failure) :
    Effect.exec (do
      orRefuse ((← getMemory).validateAdminAuthority authority)
      program) world = (.error (.failed failure), world) := by
  rw [exec_getMemory_bind, hinvalid]
  rfl

namespace AuthMemory

variable {memory : AuthMemory} {context : AuthContext}

/-- A cancelled administrator lease authorizes nothing. -/
theorem ensureAdminActive_of_isCancelled (hadmin : context.isAdmin = true)
    (hcancelled : memory.isCancelled context.lease = true)
    (rotation : Option Rotation) :
    ∃ failure, memory.ensureAdminActive rotation context = .error failure ∧
      failure.code = "administrator_key_rotated" := by
  rw [ensureAdminActive]
  split
  · rename_i lease howned hlease
    rw [isCancelled, hlease, Option.all_some] at hcancelled
    rw [if_pos hcancelled, cancelledLeaseFailure, if_pos hadmin]
    exact ⟨_, rfl, rfl⟩
  · exact ⟨_, rfl, rfl⟩

theorem not_isCancelled_of_ensureAdminActive {rotation : Option Rotation}
    {id : LeaseId} (hadmin : context.isAdmin = true)
    (hactive : memory.ensureAdminActive rotation context = .ok id) :
    memory.isCancelled context.lease = false := by
  by_contra hcancelled
  rw [Bool.not_eq_false] at hcancelled
  obtain ⟨failure, hfailure, -⟩ :=
    ensureAdminActive_of_isCancelled hadmin hcancelled rotation
  rw [hactive] at hfailure
  cases hfailure

theorem adminAuthority_of_isCancelled (hadmin : context.isAdmin = true)
    (hcancelled : memory.isCancelled context.lease = true)
    (rotation : Option Rotation) :
    ∃ failure, memory.adminAuthority rotation context = .error failure ∧
      failure.code = "administrator_key_rotated" := by
  obtain ⟨failure, hfailure, hcode⟩ :=
    ensureAdminActive_of_isCancelled hadmin hcancelled rotation
  refine ⟨failure, ?_, hcode⟩
  rw [adminAuthority, AuthContext.requireAdmin, if_pos hadmin, hfailure]
  rfl

theorem code_cancelledAuthorization (hadmin : context.isAdmin = true)
    (hcancelled : memory.isCancelled context.lease = true)
    (rotation : Option Rotation) :
    (memory.cancelledAuthorization rotation context).code =
      "administrator_key_rotated" := by
  obtain ⟨failure, hfailure, hcode⟩ :=
    ensureAdminActive_of_isCancelled hadmin hcancelled rotation
  rw [cancelledAuthorization, hfailure]
  exact hcode

theorem validateAdminAuthority_of_ne {authority : LeaseId}
    (hne : memory.inner.adminLease ≠ authority) :
    ∃ failure, memory.validateAdminAuthority authority = .error failure ∧
      failure.code = "administrator_key_rotated" := by
  rw [validateAdminAuthority]
  split
  · exact ⟨_, rfl, rfl⟩
  · rename_i presented hupgrade
    have hpresented : authority = presented :=
      Option.some.inj (Option.filter_eq_some_iff.mp hupgrade).1
    split
    · exact ⟨_, rfl, rfl⟩
    · rw [if_pos (hpresented ▸ hne.symm)]
      exact ⟨_, rfl, rfl⟩

end AuthMemory

/-- A cancelled lease ends the query at its next check. -/
theorem InventoryQuery.advance_of_isCancelled {query : InventoryQuery Page}
    {memory : AuthMemory} (hadmin : query.context.isAdmin = true)
    (hcancelled : memory.isCancelled query.context.lease = true)
    (hchecks : query.checks = true) (rotation : Option Rotation)
    (sent : ChannelPoll Unit) (reply : ChannelPoll Page) :
    ∃ failure, failure.code = "administrator_key_rotated" ∧
      query.advance memory rotation sent reply = .finished (.error failure) := by
  rw [checks] at hchecks
  split at hchecks
  · rename_i hphase
    obtain ⟨failure, hfailure, hcode⟩ :=
      AuthMemory.adminAuthority_of_isCancelled hadmin hcancelled rotation
    refine ⟨failure, hcode, ?_⟩
    simp only [advance, hphase, hfailure]
  · rename_i hphase
    refine ⟨_, AuthMemory.code_cancelledAuthorization hadmin hcancelled rotation, ?_⟩
    simp only [advance, hphase, hcancelled, if_true]
  · rename_i hphase
    refine ⟨_, AuthMemory.code_cancelledAuthorization hadmin hcancelled rotation, ?_⟩
    simp only [advance, hphase, hcancelled, if_true]
  · rename_i page hphase
    obtain ⟨failure, hfailure, hcode⟩ :=
      AuthMemory.ensureAdminActive_of_isCancelled hadmin hcancelled rotation
    refine ⟨failure, hcode, ?_⟩
    simp only [advance, hphase, hfailure]
  · cases hchecks
  · cases hchecks
  · cases hchecks

/-- A query is answered by the check that follows the reply. -/
theorem InventoryQuery.advance_eq_finished {query : InventoryQuery Page}
    {memory : AuthMemory} {rotation : Option Rotation} {sent : ChannelPoll Unit}
    {reply : ChannelPoll Page} {page : Page}
    (hadvance : query.advance memory rotation sent reply = .finished (.ok page)) :
    query.phase = .finished (.ok page) ∨ query.phase = .revalidating page ∧
      ∃ id, memory.ensureAdminActive rotation query.context = .ok id := by
  rw [advance.eq_def] at hadvance
  split at hadvance
  · split at hadvance <;> cases hadvance
  · split at hadvance <;> cases hadvance
  · split at hadvance <;> cases hadvance
  · split at hadvance <;> cases hadvance
  · split at hadvance <;> cases hadvance
  · rename_i replied hphase
    split at hadvance
    · cases hadvance
    · rename_i id hactive
      cases hadvance
      exact .inr ⟨hphase, id, hactive⟩
  · rename_i result hphase
    cases hadvance
    exact .inl hphase

/-- Only an administrator gets past the first check. -/
theorem InventoryQuery.admitted_advance (query : InventoryQuery Page)
    {memory : AuthMemory} {rotation : Option Rotation} {sent : ChannelPoll Unit}
    {reply : ChannelPoll Page}
    (hadmitted : query.context.isAdmin = true ∨ query.phase = .opened ∨
      ∃ failure, query.phase = .finished (.error failure)) :
    query.context.isAdmin = true ∨
      query.advance memory rotation sent reply = .opened ∨
        ∃ failure, query.advance memory rotation sent reply =
          .finished (.error failure) := by
  rcases hadmitted with hadmin | hopened | ⟨failure, hfinished⟩
  · exact .inl hadmin
  · cases hadmin : query.context.isAdmin with
    | true => exact .inl rfl
    | false =>
        refine .inr (.inr ?_)
        simp only [advance, hopened, AuthMemory.adminAuthority,
          AuthContext.requireAdmin, hadmin]
        exact ⟨_, rfl⟩
  · refine .inr (.inr ⟨failure, ?_⟩)
    simp only [advance, hfinished]

/-! ## The invariant -/

namespace Administration

variable {state next : Administration Page}

/-- The lease of the administrator in the shared state. -/
def IsCurrent (state : Administration Page) (lease : LeaseId) : Prop :=
  ∃ server, state.history.server = some server ∧
    server.memory.inner.adminLease = lease

/-- The lease that a rotation has replaced and not cancelled yet. -/
def IsReplaced (state : Administration Page) (lease : LeaseId) : Prop :=
  ∃ rotation, state.rotation = some rotation ∧ rotation.oldLease = lease

/-- Administrator leases that are neither current nor being replaced are
cancelled. -/
structure Sound (state : Administration Page) : Prop where
  current : ∀ server, state.history.server = some server →
    server.memory.inner.adminLease < server.memory.leaseHeap.length
  contexts : ∀ server, state.history.server = some server →
    ∀ context ∈ state.contexts, context.isAdmin = true →
      context.lease < server.memory.leaseHeap.length ∧
        (state.IsCurrent context.lease ∨ state.IsReplaced context.lease ∨
          server.memory.isCancelled context.lease = true)
  queries : ∀ query ∈ state.queries, query.context ∈ state.contexts
  admitted : ∀ query ∈ state.queries,
    query.context.isAdmin = true ∨ query.phase = .opened ∨
      ∃ failure, query.phase = .finished (.error failure)

variable {crypto : AuthCrypto}

/-- A step of the server that keeps the authority. -/
theorem Sound.history (hsound : state.Sound)
    (hcontexts : next.contexts = state.contexts)
    (hqueries : next.queries = state.queries)
    (hrotation : next.rotation = state.rotation)
    (hhistory : ∀ after, next.history.server = some after →
      ∃ server, state.history.server = some server ∧
        AuthMemory.Retains server.memory after.memory) : next.Sound := by
  refine ⟨?_, ?_, by rw [hqueries, hcontexts]; exact hsound.queries,
    by rw [hqueries]; exact hsound.admitted⟩
  · intro after hafter
    obtain ⟨server, hserver, hretains⟩ := hhistory after hafter
    rw [hretains.adminLease]
    exact (hsound.current server hserver).trans_le hretains.length
  · intro after hafter context hcontext hadmin
    obtain ⟨server, hserver, hretains⟩ := hhistory after hafter
    rw [hcontexts] at hcontext
    obtain ⟨hlt, hlease⟩ := hsound.contexts server hserver context hcontext hadmin
    refine ⟨hlt.trans_le hretains.length, ?_⟩
    rcases hlease with ⟨found, hfound, hcurrent⟩ | hreplaced | hcancelled
    · rw [hserver] at hfound
      cases hfound
      exact .inl ⟨after, hafter, hretains.adminLease.trans hcurrent⟩
    · refine .inr (.inl ?_)
      rw [IsReplaced, hrotation]
      exact hreplaced
    · exact .inr (.inr (hretains.cancelled _ hlt hcancelled))

/-- A credential that was authenticated joins the others. -/
theorem Sound.authenticate (hsound : state.Sound) {server : AuthServer}
    (hserver : state.history.server = some server) {context : AuthContext}
    (hlease : context.isAdmin = true →
      context.lease = server.memory.inner.adminLease) :
    Sound { state with contexts := state.contexts ++ [context] } := by
  refine ⟨hsound.current, ?_, ?_, hsound.admitted⟩
  · intro found hfound other hother hadmin
    rcases List.mem_append.mp hother with hother | hother
    · exact hsound.contexts found hfound other hother hadmin
    · rw [List.mem_singleton.mp hother] at hadmin ⊢
      rw [hserver] at hfound
      cases hfound
      rw [hlease hadmin]
      exact ⟨hsound.current server hserver, .inl ⟨server, hserver, rfl⟩⟩
  · exact fun query hquery => List.mem_append_left _ (hsound.queries query hquery)

theorem lease_of_authenticated {memory : AuthMemory} {keyId : KeyId}
    {presentedKey : AesKeyType} {now : ℕ} {context : AuthContext}
    (hresult : (memory.authenticatePresented crypto keyId presentedKey now).1 =
      .ok context) (hadmin : context.isAdmin = true) :
    context.lease = memory.inner.adminLease := by
  rw [AuthMemory.authenticatePresented] at hresult
  split at hresult
  · split at hresult
    · cases hresult
    · split at hresult
      · rename_i lease hupgrade
        cases hresult
        exact (Option.some.inj (Option.filter_eq_some_iff.mp hupgrade).1).symm
      · cases hresult
  · split at hresult
    · cases hresult
    · rw [AuthMemory.lookupCredential] at hresult
      split at hresult
      · cases hresult
      split at hresult
      · cases hresult
      split at hresult
      · cases hresult
      split at hresult
      · cases hresult
      split at hresult
      · cases hresult
        cases hadmin
      · cases hresult

/-- The new lease of a rotation is behind all others. -/
theorem publishRotation_spec (memory : AuthMemory) (newKey : AesKeyType)
    (audit : AuditRecord) (now : ℕ) :
    ∃ wiped : AuthMemory, AuthMemory.Retains memory wiped ∧
      (memory.publishRotation newKey audit now).inner.adminLease =
        wiped.leaseHeap.length ∧
      (memory.publishRotation newKey audit now).leaseHeap =
        wiped.leaseHeap ++ [.new adminKeyId u64Max] := by
  have hpushed : AuthMemory.Retains memory (memory.pushAuditRecord audit) :=
    AuthMemory.retains_aside (AuthMemory.aside_pushAuditRecord audit)
  exact ⟨((memory.pushAuditRecord audit).rememberPreviousRoot).wipe now,
    (hpushed.trans (AuthMemory.retains_aside
      AuthMemory.aside_rememberPreviousRoot)).trans (AuthMemory.retains_wipe now),
    rfl, rfl⟩

/-- A rotation is published. -/
theorem Sound.publish (hsound : state.Sound) {server : AuthServer}
    (hserver : state.history.server = some server) (hidle : state.rotation = none)
    (hcontexts : next.contexts = state.contexts)
    (hqueries : next.queries = state.queries) {rotation : Rotation}
    (hrotation : next.rotation = some rotation)
    (hold : rotation.oldLease = server.memory.inner.adminLease)
    {after : AuthServer} (hafter : next.history.server = some after)
    {newKey : AesKeyType} {audit : AuditRecord} {now : ℕ}
    (hmemory : after.memory =
      server.memory.bumpRootEpoch.publishRotation newKey audit now) :
    next.Sound := by
  obtain ⟨wiped, hwiped, hadminLease, hheap⟩ :=
    publishRotation_spec server.memory.bumpRootEpoch newKey audit now
  have hretains : AuthMemory.Retains server.memory wiped :=
    (AuthMemory.retains_aside AuthMemory.aside_bumpRootEpoch).trans hwiped
  rw [← hmemory] at hadminLease hheap
  have hlength : after.memory.leaseHeap.length = wiped.leaseHeap.length + 1 := by
    rw [hheap, List.length_append, List.length_singleton]
  refine ⟨?_, ?_, by rw [hqueries, hcontexts]; exact hsound.queries,
    by rw [hqueries]; exact hsound.admitted⟩
  · intro found hfound
    rw [hafter] at hfound
    cases hfound
    rw [hadminLease, hlength]
    exact Nat.lt_succ_self _
  · intro found hfound context hcontext hadmin
    rw [hafter] at hfound
    cases hfound
    rw [hcontexts] at hcontext
    obtain ⟨hlt, hlease⟩ := hsound.contexts server hserver context hcontext hadmin
    have hwipedLt := hlt.trans_le hretains.length
    refine ⟨hwipedLt.trans (by rw [hlength]; exact Nat.lt_succ_self _), .inr ?_⟩
    rcases hlease with ⟨before, hbefore, hcurrent⟩ | ⟨other, hother, -⟩ | hcancelled
    · rw [hserver] at hbefore
      cases hbefore
      exact .inl ⟨rotation, hrotation, hold.trans hcurrent⟩
    · rw [hidle] at hother
      cases hother
    · have hsame : after.memory.lease? context.lease =
          wiped.lease? context.lease := by
        rw [AuthMemory.lease?, hheap]
        exact List.getElem?_append_left hwipedLt
      refine .inr ?_
      rw [AuthMemory.isCancelled, hsame]
      exact hretains.cancelled _ hlt hcancelled

/-- The old lease of a rotation is cancelled. -/
theorem Sound.settle (hsound : state.Sound) {rotation : Rotation}
    (hrotation : state.rotation = some rotation)
    (hsettle : state.settle rotation = some next) : next.Sound := by
  obtain ⟨server, hserver, hnext⟩ := Option.bind_eq_some_iff.mp hsettle
  cases hnext
  have hcancelled : AuthMemory.Retains server.memory
      (server.memory.settleRotation rotation.oldLease) := by
    have haside : AuthMemory.Retains server.memory
        (AuthMemory.recordCancel .rotated server.memory rotation.oldLease) :=
      AuthMemory.retains_aside (AuthMemory.aside_recordCancel _ _)
    exact haside.trans (AuthMemory.retains_of_heap rfl rfl)
  refine ⟨?_, ?_, hsound.queries, hsound.admitted⟩
  · rintro found ⟨⟩
    exact (hsound.current server hserver).trans_le hcancelled.length
  · rintro found ⟨⟩ context hcontext hadmin
    obtain ⟨hlt, hlease⟩ := hsound.contexts server hserver context hcontext hadmin
    refine ⟨hlt.trans_le hcancelled.length, ?_⟩
    rcases hlease with ⟨before, hbefore, hcurrent⟩ | ⟨other, hother, hreplaced⟩ |
      hdead
    · rw [hserver] at hbefore
      cases hbefore
      exact .inl ⟨_, rfl, hcurrent⟩
    · rw [hrotation] at hother
      cases hother
      refine .inr (.inr ?_)
      change ((AuthMemory.recordCancel .rotated server.memory
        rotation.oldLease).lease? context.lease).all (·.cancelled) = true
      rw [AuthMemory.lease?_recordCancel, hreplaced, Option.all_map]
      simp [AuthLease.recordCancel]
    · exact .inr (.inr (hcancelled.cancelled _ hlt hdead))

/-- What the actor does with a command of the channel. -/
theorem execute_cases {queued : QueuedCommand} {rest : List QueuedCommand}
    {env : Surroundings} {outcomes : List FileOutcome}
    (hexecute : state.execute crypto queued rest env outcomes = some next) :
    (∃ newKey server, queued.command = .rotateRoot newKey ∧
      state.history.server = some server ∧
      state.executeRotation queued.authority rest env outcomes newKey server =
        next) ∨
      (∀ newKey, queued.command ≠ .rotateRoot newKey) ∧
        ∃ history, state.history.step crypto
            (.command env queued.authority queued.command outcomes) =
              some history ∧
          next = { state with queue := rest, history := history } := by
  rw [Administration.execute] at hexecute
  split at hexecute
  · rename_i newKey hcommand
    obtain ⟨server, hserver, hnext⟩ := Option.bind_eq_some_iff.mp hexecute
    exact .inl ⟨newKey, server, hcommand, hserver, Option.some.inj hnext⟩
  · rename_i hother
    obtain ⟨history, hhistory, hnext⟩ := Option.bind_eq_some_iff.mp hexecute
    exact .inr ⟨fun newKey => hother newKey, history, hhistory,
      (Option.some.inj hnext).symm⟩

theorem Sound.execute (hsound : state.Sound) (hidle : state.rotation = none)
    {queued : QueuedCommand} {rest : List QueuedCommand} {env : Surroundings}
    {outcomes : List FileOutcome}
    (hexecute : state.execute crypto queued rest env outcomes = some next) :
    next.Sound := by
  rcases execute_cases hexecute with
    ⟨newKey, server, -, hserver, rfl⟩ | ⟨hother, history, hhistory, rfl⟩
  · have hended := executeRotation_triple server.config queued.authority
      env.clock newKey ⟨server.memory, ⟨state.history.dir, outcomes⟩⟩ ⟨rfl, rfl⟩
    rw [executeRotation]
    generalize Effect.exec _ _ = ended at hended ⊢
    rcases ended with ⟨stop | oldLease, world⟩
    · cases stop with
      | failed failure =>
          refine hsound.history rfl rfl ?_ ?_
          · exact hidle.symm
          · rintro after ⟨⟩
            exact ⟨server, hserver, hended⟩
      | stopped =>
          refine hsound.history rfl rfl ?_ ?_
          · exact hidle.symm
          · exact nofun
    · obtain ⟨hold, audit, now, hmemory⟩ := hended
      exact hsound.publish hserver hidle rfl rfl rfl hold rfl hmemory
  · exact hsound.history rfl rfl rfl fun _ =>
      AuthHistory.step_retains hhistory (AuthEvent.keeps_command hother)

theorem Sound.step (hsound : state.Sound) {event : AdminEvent Page}
    (hstep : state.step crypto event = some next) : next.Sound := by
  cases event with
  | start config env outcomes =>
      obtain ⟨history, hhistory, hnext⟩ := Option.bind_eq_some_iff.mp hstep
      cases hnext
      refine ⟨fun server hserver => ?_,
        fun _ _ _ hmem => absurd hmem List.not_mem_nil,
        fun _ hmem => absurd hmem List.not_mem_nil,
        fun _ hmem => absurd hmem List.not_mem_nil⟩
      cases step_moves hhistory with
      | started _ hmove =>
          cases hserver
          exact hmove.adminLease_lt
      | startCut => cases hserver
  | tick now outcomes =>
      rw [Administration.step] at hstep
      split at hstep
      · cases hstep
      · obtain ⟨history, hhistory, hnext⟩ := Option.bind_eq_some_iff.mp hstep
        cases hnext
        exact hsound.history rfl rfl rfl fun _ =>
          AuthHistory.step_retains hhistory trivial
  | authenticate keyId presentedKey now =>
      obtain ⟨server, hserver, hstep⟩ := Option.bind_eq_some_iff.mp hstep
      obtain ⟨history, hhistory, hnext⟩ := Option.bind_eq_some_iff.mp hstep
      cases hnext
      have hretains : ∀ after, history.server = some after →
          ∃ server, state.history.server = some server ∧
            AuthMemory.Retains server.memory after.memory :=
        fun _ => AuthHistory.step_retains hhistory trivial
      cases hresult : (server.memory.authenticatePresented crypto keyId presentedKey
          now).1 with
      | error failure =>
          exact hsound.history (List.append_nil _) rfl rfl hretains
      | ok context =>
          exact (hsound.authenticate hserver fun hadmin =>
            lease_of_authenticated hresult hadmin).history rfl rfl rfl hretains
  | check check =>
      obtain ⟨history, hhistory, hnext⟩ := Option.bind_eq_some_iff.mp hstep
      cases hnext
      exact hsound.history rfl rfl rfl fun _ =>
        AuthHistory.step_retains hhistory trivial
  | submit context command =>
      obtain ⟨server, hserver, hstep⟩ := Option.bind_eq_some_iff.mp hstep
      split at hstep
      · cases hstep
      split at hstep
      · cases hstep
        exact ⟨hsound.current, hsound.contexts, hsound.queries, hsound.admitted⟩
      · cases hstep
        exact ⟨hsound.current, hsound.contexts, hsound.queries, hsound.admitted⟩
  | execute env outcomes =>
      rw [Administration.step] at hstep
      split at hstep
      · rename_i queued rest hidle hqueue
        exact hsound.execute hidle hstep
      · cases hstep
  | settle =>
      obtain ⟨rotation, hrotation, hsettle⟩ := Option.bind_eq_some_iff.mp hstep
      exact hsound.settle hrotation hsettle
  | openQuery context inventory =>
      obtain ⟨server, hserver, hstep⟩ := Option.bind_eq_some_iff.mp hstep
      split at hstep
      · cases hstep
      rename_i hmem
      cases hstep
      refine ⟨hsound.current, hsound.contexts, fun query hquery => ?_,
        fun query hquery => ?_⟩
      · rcases List.mem_append.mp hquery with hquery | hquery
        · exact hsound.queries query hquery
        · rw [List.mem_singleton.mp hquery]
          exact not_not.mp hmem
      · rcases List.mem_append.mp hquery with hquery | hquery
        · exact hsound.admitted query hquery
        · rw [List.mem_singleton.mp hquery]
          exact .inr (.inl rfl)
  | poll index sent reply =>
      obtain ⟨server, hserver, hstep⟩ := Option.bind_eq_some_iff.mp hstep
      obtain ⟨query, hquery, hnext⟩ := Option.bind_eq_some_iff.mp hstep
      cases hnext
      have hmem := List.mem_of_getElem? hquery
      refine ⟨hsound.current, hsound.contexts, fun other hother => ?_,
        fun other hother => ?_⟩
      · rcases List.mem_or_eq_of_mem_set hother with hother | rfl
        · exact hsound.queries other hother
        · exact hsound.queries query hmem
      · rcases List.mem_or_eq_of_mem_set hother with hother | rfl
        · exact hsound.admitted other hother
        · exact query.admitted_advance (hsound.admitted query hmem)
  | stop =>
      obtain ⟨history, hhistory, hnext⟩ := Option.bind_eq_some_iff.mp hstep
      cases hnext
      exact hsound.history rfl rfl rfl fun _ =>
        AuthHistory.step_retains hhistory trivial

theorem sound_of_reachable
    (hreachable : (adminSystem crypto Page).Reachable state) : state.Sound := by
  apply hreachable.invariant
  · rintro state rfl
    exact ⟨fun _ hserver => by (cases hserver),
      fun _ _ _ hmem => absurd hmem List.not_mem_nil,
      fun _ hmem => absurd hmem List.not_mem_nil,
      fun _ hmem => absurd hmem List.not_mem_nil⟩
  · exact fun _ _ _ hsound hstep => hsound.step hstep

/-! ## Stale authority -/

/-- What is done under an administrator lease that is not the current one.  A
command is refused by the actor.  A request that asks the lease itself is refused
unless a rotation is about to cancel it. -/
structure RefusesStale (state : Administration Page) (event : AdminEvent Page)
    (next : Administration Page) : Prop where
  commands : ∀ env outcomes queued rest, event = .execute env outcomes →
    state.queue = queued :: rest → ¬state.IsCurrent queued.authority →
      ∃ failure, failure.code = "administrator_key_rotated" ∧
        next = { state with
          queue := rest
          history :=
            { state.history with
              records := state.history.records ++
                [.answered (env.clock 0) queued.command (.error failure)] } }
  submissions : ∀ context command, event = .submit context command →
    context.isAdmin = true → ¬state.IsCurrent context.lease →
      ¬state.IsReplaced context.lease →
        ∃ failure, failure.code = "administrator_key_rotated" ∧
          next = { state with refusals := state.refusals ++ [failure] }
  queries : ∀ index sent reply query, event = .poll index sent reply →
    state.queries[index]? = some query → query.checks = true →
      query.context.isAdmin = true → ¬state.IsCurrent query.context.lease →
        ¬state.IsReplaced query.context.lease →
          ∃ failure, failure.code = "administrator_key_rotated" ∧
            next = { state with
              queries := state.queries.set index
                { query with phase := .finished (.error failure) } }
  inventory : ∀ (index : ℕ) (query : InventoryQuery Page) (page : Page),
    next.queries[index]? = some query →
    query.phase = .finished (.ok page) → state.queries[index]? = some query ∨
      query.context.isAdmin = true ∧
        (state.IsCurrent query.context.lease ∨
          state.IsReplaced query.context.lease)

theorem isCancelled_of_stale (hsound : state.Sound) {server : AuthServer}
    (hserver : state.history.server = some server) {context : AuthContext}
    (hcontext : context ∈ state.contexts) (hadmin : context.isAdmin = true)
    (hcurrent : ¬state.IsCurrent context.lease)
    (hreplaced : ¬state.IsReplaced context.lease) :
    server.memory.isCancelled context.lease = true :=
  (((hsound.contexts server hserver context hcontext hadmin).2.resolve_left
    hcurrent).resolve_left hreplaced)

/-- A command under another lease than the current one is refused. -/
theorem execute_of_stale {queued : QueuedCommand} {rest : List QueuedCommand}
    {env : Surroundings} {outcomes : List FileOutcome}
    (hidle : state.rotation = none)
    (hexecute : state.execute crypto queued rest env outcomes = some next)
    (hcurrent : ¬state.IsCurrent queued.authority) :
    ∃ failure, failure.code = "administrator_key_rotated" ∧
      next = { state with
        queue := rest
        history :=
          { state.history with
            records := state.history.records ++
              [.answered (env.clock 0) queued.command (.error failure)] } } := by
  have hrefused : ∀ server, state.history.server = some server →
      ∃ failure, failure.code = "administrator_key_rotated" ∧
        server.memory.validateAdminAuthority queued.authority = .error failure := by
    intro server hserver
    obtain ⟨failure, hfailure, hcode⟩ := AuthMemory.validateAdminAuthority_of_ne
      fun hlease => hcurrent ⟨server, hserver, hlease⟩
    exact ⟨failure, hcode, hfailure⟩
  obtain ⟨⟨dir, running, records⟩, contexts, queue, rotation, queries, refusals⟩ :=
    state
  cases hidle
  rcases execute_cases hexecute with
    ⟨newKey, server, hcommand, hserver, rfl⟩ | ⟨-, history, hhistory, rfl⟩
  · obtain ⟨failure, hcode, hinvalid⟩ := hrefused server hserver
    cases hserver
    refine ⟨failure, hcode, ?_⟩
    rw [executeRotation, exec_refused _ hinvalid, hcommand]
    rfl
  · obtain ⟨server, hserver, hnext⟩ := Option.bind_eq_some_iff.mp hhistory
    obtain ⟨failure, hcode, hinvalid⟩ := hrefused server hserver
    cases hserver
    refine ⟨failure, hcode, ?_⟩
    rw [actorCommand, exec_refused _ hinvalid] at hnext
    cases hnext
    rfl

/-- A query is untouched, new, or one moment further. -/
theorem query_step {event : AdminEvent Page}
    (hstep : state.step crypto event = some next) {index : ℕ}
    {query : InventoryQuery Page} (hquery : next.queries[index]? = some query) :
    state.queries[index]? = some query ∨ query.phase = .opened ∨
      ∃ server before sent reply, state.history.server = some server ∧
        state.queries[index]? = some before ∧
          query = { before with
            phase := before.advance server.memory state.rotation sent reply } := by
  cases event with
  | start config env outcomes =>
      obtain ⟨history, -, hnext⟩ := Option.bind_eq_some_iff.mp hstep
      cases hnext
      cases hquery
  | tick now outcomes =>
      rw [Administration.step] at hstep
      split at hstep
      · cases hstep
      · obtain ⟨history, -, hnext⟩ := Option.bind_eq_some_iff.mp hstep
        cases hnext
        exact .inl hquery
  | authenticate keyId presentedKey now =>
      obtain ⟨server, -, hstep⟩ := Option.bind_eq_some_iff.mp hstep
      obtain ⟨history, -, hnext⟩ := Option.bind_eq_some_iff.mp hstep
      cases hnext
      exact .inl hquery
  | check check =>
      obtain ⟨history, -, hnext⟩ := Option.bind_eq_some_iff.mp hstep
      cases hnext
      exact .inl hquery
  | submit context command =>
      obtain ⟨server, -, hstep⟩ := Option.bind_eq_some_iff.mp hstep
      split at hstep
      · cases hstep
      split at hstep
      · cases hstep
        exact .inl hquery
      · cases hstep
        exact .inl hquery
  | execute env outcomes =>
      rw [Administration.step] at hstep
      split at hstep
      · rcases execute_cases hstep with ⟨_, _, -, -, rfl⟩ | ⟨-, _, -, rfl⟩
        · exact .inl hquery
        · exact .inl hquery
      · cases hstep
  | settle =>
      obtain ⟨rotation, -, hsettle⟩ := Option.bind_eq_some_iff.mp hstep
      obtain ⟨server, -, hnext⟩ := Option.bind_eq_some_iff.mp hsettle
      cases hnext
      exact .inl hquery
  | openQuery context inventory =>
      obtain ⟨server, -, hstep⟩ := Option.bind_eq_some_iff.mp hstep
      split at hstep
      · cases hstep
      cases hstep
      rcases Nat.lt_or_ge index state.queries.length with hlt | hge
      · exact .inl ((List.getElem?_append_left hlt).symm.trans hquery)
      · rw [List.getElem?_append_right hge] at hquery
        have hmem := List.mem_of_getElem? hquery
        rw [List.mem_singleton.mp hmem]
        exact .inr (.inl rfl)
  | poll other sent reply =>
      obtain ⟨server, hserver, hstep⟩ := Option.bind_eq_some_iff.mp hstep
      obtain ⟨before, hbefore, hnext⟩ := Option.bind_eq_some_iff.mp hstep
      cases hnext
      by_cases hsame : other = index
      · subst hsame
        rw [List.getElem?_set_self (List.getElem?_eq_some_iff.mp hbefore).1]
          at hquery
        exact .inr (.inr ⟨server, before, sent, reply, hserver, hbefore,
          (Option.some.inj hquery).symm⟩)
      · rw [List.getElem?_set_ne hsame] at hquery
        exact .inl hquery
  | stop =>
      obtain ⟨history, -, hnext⟩ := Option.bind_eq_some_iff.mp hstep
      cases hnext
      exact .inl hquery

/-- Only a lease that is not cancelled gets an answer. -/
theorem inventory_step (hsound : state.Sound) {event : AdminEvent Page}
    (hstep : state.step crypto event = some next) {index : ℕ}
    {query : InventoryQuery Page} {page : Page}
    (hquery : next.queries[index]? = some query)
    (hphase : query.phase = .finished (.ok page)) :
    state.queries[index]? = some query ∨ query.context.isAdmin = true ∧
      (state.IsCurrent query.context.lease ∨
        state.IsReplaced query.context.lease) := by
  rcases query_step hstep hquery with hsame | hopened |
    ⟨server, before, sent, reply, hserver, hbefore, rfl⟩
  · exact .inl hsame
  · rw [hopened] at hphase
    cases hphase
  · have hmem := List.mem_of_getElem? hbefore
    rcases InventoryQuery.advance_eq_finished hphase with
      hfinished | ⟨hrevalidating, id, hactive⟩
    · refine .inl (hbefore.trans (congrArg some ?_))
      rw [show before.advance server.memory state.rotation sent reply =
        before.phase from
        hphase.trans hfinished.symm]
    · have hadmin : before.context.isAdmin = true := by
        rcases hsound.admitted before hmem with hadmin | hother | ⟨failure, hother⟩
        · exact hadmin
        · rw [hrevalidating] at hother
          cases hother
        · rw [hrevalidating] at hother
          cases hother
      have hlive := AuthMemory.not_isCancelled_of_ensureAdminActive hadmin hactive
      obtain ⟨-, hlease⟩ := hsound.contexts server hserver before.context
        (hsound.queries before hmem) hadmin
      refine .inr ⟨hadmin, ?_⟩
      rcases hlease with hcurrent | hreplaced | hcancelled
      · exact .inl hcurrent
      · exact .inr hreplaced
      · rw [hlive] at hcancelled
        cases hcancelled

theorem refusesStale_of_sound (hsound : state.Sound) {event : AdminEvent Page}
    (hstep : state.step crypto event = some next) :
    state.RefusesStale event next := by
  constructor
  · rintro env outcomes queued rest rfl hqueue hcurrent
    rw [Administration.step] at hstep
    split at hstep
    · rename_i found others hidle hfound
      rw [hqueue] at hfound
      cases hfound
      exact execute_of_stale hidle hstep hcurrent
    · cases hstep
  · rintro context command rfl hadmin hcurrent hreplaced
    obtain ⟨server, hserver, hstep⟩ := Option.bind_eq_some_iff.mp hstep
    split at hstep
    · cases hstep
    rename_i hmem
    obtain ⟨failure, hfailure, hcode⟩ := AuthMemory.adminAuthority_of_isCancelled
      hadmin (isCancelled_of_stale hsound hserver (not_not.mp hmem) hadmin hcurrent
        hreplaced) state.rotation
    rw [hfailure] at hstep
    cases hstep
    exact ⟨failure, hcode, rfl⟩
  · rintro index sent reply query rfl hquery hchecks hadmin hcurrent hreplaced
    obtain ⟨server, hserver, hstep⟩ := Option.bind_eq_some_iff.mp hstep
    rw [hquery] at hstep
    cases hstep
    have hcontext := hsound.queries query (List.mem_of_getElem? hquery)
    obtain ⟨failure, hcode, hadvance⟩ := InventoryQuery.advance_of_isCancelled
      hadmin (isCancelled_of_stale hsound hserver hcontext hadmin hcurrent hreplaced)
        hchecks state.rotation sent reply
    refine ⟨failure, hcode, ?_⟩
    rw [hadvance]
  · exact fun index query page => inventory_step hsound hstep

/-- A rotation that is settled at once is the rotation of the actor. -/
theorem settle_executeRotation {authority : LeaseId} {rest : List QueuedCommand}
    {env : Surroundings} {outcomes : List FileOutcome} {newKey : AesKeyType}
    {server : AuthServer} (hserver : state.history.server = some server)
    {rotation : Rotation}
    (hrotation : (state.executeRotation authority rest env outcomes newKey
      server).rotation = some rotation)
    (hsettle : (state.executeRotation authority rest env outcomes newKey
      server).settle rotation = some next) :
    state.history.step crypto
      (.command env authority (.rotateRoot newKey) outcomes) =
        some next.history := by
  have hexec : (actorCommand crypto server.config env authority
      (.rotateRoot newKey)).exec ⟨server.memory, ⟨state.history.dir, outcomes⟩⟩ =
        settleEnd (Effect.exec (do
          orRefuse ((← getMemory).validateAdminAuthority authority)
          actorRotateRootPublish server.config env.clock newKey)
          ⟨server.memory, ⟨state.history.dir, outcomes⟩⟩) := by
    rw [actorCommand]
    apply exec_bind_settleEnd
    intro read world
    apply exec_bind_settleEnd
    intro _ world
    exact exec_rotateRoot crypto server.config env newKey world
  rw [AuthHistory.step, hserver]
  change some (state.history.finish _ _ ((actorCommand crypto server.config env
    authority (.rotateRoot newKey)).exec _)) = _
  rw [hexec]
  rw [executeRotation] at hrotation hsettle
  generalize Effect.exec _ _ = ended at hrotation hsettle ⊢
  rcases ended with ⟨stop | oldLease, world⟩
  · cases hrotation
  · cases hrotation
    rw [Administration.settle] at hsettle
    obtain ⟨found, hfound, hnext⟩ := Option.bind_eq_some_iff.mp hsettle
    cases hfound
    cases hnext
    simp [settleEnd, AuthHistory.finish]

end Administration

/-! ## Sample runs -/

variable {crypto : AuthCrypto}

/-- Stale authority has no effect in any state that can be reached. -/
theorem refusesStale_of_reachable {state next : Administration Page}
    (hreachable : (adminSystem crypto Page).Reachable state)
    {event : AdminEvent Page} (hstep : state.step crypto event = some next) :
    state.RefusesStale event next :=
  Administration.refusesStale_of_sound
    (Administration.sound_of_reachable hreachable) hstep

def Administration.play (events : List (AdminEvent ℕ))
    (state : Administration ℕ) : Option (Administration ℕ) :=
  events.foldlM (Administration.step .sample) state

/-- The administrator of the first root. -/
def firstAdministrator : AuthContext := .fromLease adminKeyId true 0

/-- A server whose administrator has asked for a rotation and for a key. -/
def AdminEvent.sampleRotation : List (AdminEvent ℕ) :=
  [.start (.sample 0) ⟨fun _ => 100, .generated (sampleAdminKey 65),
      .replicate 16 1⟩ [],
    .authenticate adminKeyId (sampleAdminKey 65) 100,
    .submit firstAdministrator (.rotateRoot (sampleAdminKey 66)),
    .submit firstAdministrator (.issue (.fromSecs 20) none),
    .execute ⟨fun _ => 100, .replicate 16 1, ⟨[], []⟩⟩ []]

/-- The key is refused once the rotation is done. -/
theorem refusesStale_issue_after_rotation : ∃ state next,
    Administration.play (AdminEvent.sampleRotation ++ [.settle]) .initial =
      some state ∧
      state.step .sample (.execute ⟨fun _ => 101, .replicate 16 1, ⟨[], []⟩⟩ []) =
        some next ∧
      ¬state.IsCurrent 0 ∧
      state.RefusesStale (.execute ⟨fun _ => 101, .replicate 16 1, ⟨[], []⟩⟩ [])
        next := by
  have hrun : ((Administration.play (AdminEvent.sampleRotation ++ [.settle])
      .initial).map fun state => ((state.history.server.map
        (·.memory.inner.adminLease)), (state.step .sample
          (.execute ⟨fun _ => 101, .replicate 16 1, ⟨[], []⟩⟩ [])).isSome)) =
      some (some 1, true) := by
    decide +kernel
  obtain ⟨state, hplay, hread⟩ := Option.map_eq_some_iff.mp hrun
  obtain ⟨hlease, hnext⟩ := Prod.mk.inj hread
  obtain ⟨next, hnext⟩ := Option.isSome_iff_exists.mp hnext
  refine ⟨state, next, hplay, hnext, ?_, refusesStale_of_reachable
    (Transition.System.reachable_of_foldlM (fun _ _ _ => id) rfl hplay) hnext⟩
  rintro ⟨server, hserver, hcurrent⟩
  rw [hserver, Option.map_some, hcurrent] at hlease
  cases hlease

/-- A query that comes between the new lease and the end of the old one is
answered. -/
theorem query_answered_under_replaced_lease : ∃ state last,
    Administration.play AdminEvent.sampleRotation .initial = some state ∧
      ¬state.IsCurrent firstAdministrator.lease ∧
      Administration.play
        [.openQuery firstAdministrator "service", .poll 0 .pending .pending,
          .poll 0 .pending .pending, .poll 0 (.ready ()) .pending,
          .poll 0 .pending .pending, .poll 0 .pending (.ready 7),
          .poll 0 .pending .pending] state = some last ∧
      last.queries = [⟨firstAdministrator, "service", .finished (.ok 7)⟩] := by
  have hrun : ((Administration.play AdminEvent.sampleRotation .initial).bind
      fun state => (Administration.play [.openQuery firstAdministrator "service",
        .poll 0 .pending .pending, .poll 0 .pending .pending,
        .poll 0 (.ready ()) .pending, .poll 0 .pending .pending,
        .poll 0 .pending (.ready 7), .poll 0 .pending .pending] state).map
          fun last => (state.history.server.map (·.memory.inner.adminLease),
            last.queries)) =
      some (some 1, [⟨firstAdministrator, "service", .finished (.ok 7)⟩]) := by
    decide +kernel
  obtain ⟨state, hplay, hrest⟩ := Option.bind_eq_some_iff.mp hrun
  obtain ⟨last, hlast, hread⟩ := Option.map_eq_some_iff.mp hrest
  obtain ⟨hlease, hqueries⟩ := Prod.mk.inj hread
  refine ⟨state, last, hplay, ?_, hlast, hqueries⟩
  rintro ⟨server, hserver, hcurrent⟩
  rw [hserver, Option.map_some, hcurrent] at hlease
  cases hlease

end PbMapper.Auth

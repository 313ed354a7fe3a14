import PbMapper.Foundation.Transition
import PbMapper.Relay.Connection
import PbMapper.Relay.Manager

/-!
# The relay as a transition system

The manager loop, the connection handlers and the bounded queues between them.
Everything that runs concurrently is interleaved: the listener, the manager
between two of its awaits, each handler, and the tasks that send a deregistration
for a guard dropped while the queue was full.  Sockets and timers are events.
-/

namespace PbMapper.Relay

/-- `DEFAULT_CHAN_CAP` of the manager's queue. -/
def managerCapacity : ℕ := 1024

/-- A queued task.  The handler it comes from is known to the statements, not to
the manager. -/
structure Envelope where
  sender : Option Socket
  task : ManagerTask

/-- What the manager loop is doing. -/
inductive Phase where
  | idle
  /-- It waits for a channel while handling a task of `sender`. -/
  | sending (sender : Option Socket) (outgoing : Outgoing)
  | stopped

/-- The relay.  `retired` lists the connections whose retirement the manager has
processed; no step reads it. -/
structure RelayState where
  manager : Manager
  phase : Phase
  queue : List Envelope
  deferred : List Envelope
  connections : Table Socket Connection
  nextSocket : Socket
  clock : Instant
  retired : List Socket

def RelayState.init : RelayState := ⟨.new, .idle, [], [], ∅, 0, 0, []⟩

inductive Event where
  /-- The listener passes an accepted connection on. -/
  | arrive
  | shutdown
  /-- The manager takes a task, at a reading of the clock. -/
  | receive (now : Instant)
  /-- The manager's pending send returns. -/
  | send
  /-- A deferred deregistration joins the queue. -/
  | flush (index : ℕ)
  | connection (socket : Socket) (event : ConnEvent)
  /-- A handler takes the next message of its channel. -/
  | recv (socket : Socket) (late : Bool)

namespace RelayState

variable (settings : Settings) (relay : RelayState)

/-! ## Queues and channels -/

def hasRoom : Bool := relay.queue.length < managerCapacity

def enqueue (envelope : Envelope) : RelayState :=
  { relay with queue := relay.queue ++ [envelope] }

/-- `try_send`, or a task of its own that sends later. -/
def enqueueOrDefer (envelope : Envelope) : RelayState :=
  if relay.hasRoom then relay.enqueue envelope
  else { relay with deferred := relay.deferred ++ [envelope] }

def setConnection (socket : Socket) (connection : Connection) : RelayState :=
  { relay with connections := relay.connections.insert socket connection }

def dropConnection (socket : Socket) : RelayState :=
  { relay with connections := relay.connections.erase socket }

/-- The connection whose handler still reads the channel. -/
def receiver (channel : Socket) : Option Connection :=
  (relay.connections.lookup channel).filter (·.handler.isOpen)

def isFull (connection : Connection) : Bool :=
  connection.handler.capacity ≤ connection.buffer.length

def deliver (channel : Socket) (connection : Connection) (message : ConnTask) :
    RelayState :=
  relay.setConnection channel
    { connection with buffer := connection.buffer ++ [message] }

/-! ## The manager -/

/-- The outcome of a handler, or of its rest, becomes the manager's phase. -/
def settle (sender : Option Socket) (manager : Manager) : Outcome → RelayState
  | .done => { relay with manager, phase := .idle }
  | .spawn connId =>
      { relay with
        manager
        phase := .idle
        nextSocket := relay.nextSocket + 1 }.setConnection relay.nextSocket
          ⟨connId, .initial, []⟩
  | .trySend channel message =>
      let settled : RelayState := { relay with manager, phase := .idle }
      match settled.receiver channel with
      | none => settled
      | some connection =>
          if isFull connection then settled
          else settled.deliver channel connection message
  | .send outgoing => { relay with manager, phase := .sending sender outgoing }
  | .stop => { relay with manager, phase := .stopped }

/-- The connections a task retires. -/
def retiredBy : ManagerTask → List Socket
  | .retireServerConn _ connId _ =>
      (relay.manager.taskManager.getConnSenderChan connId).toList
  | _ => []

def receive (now : Instant) : Option RelayState :=
  match relay.phase, relay.queue with
  | .idle, envelope :: queue =>
      if relay.clock ≤ now then
        let (manager, outcome) :=
          relay.manager.handle settings now envelope.task
        some ({ relay with
          queue
          clock := now
          retired := relay.retiredBy envelope.task ++ relay.retired }.settle
            envelope.sender manager outcome)
      else none
  | _, _ => none

def send : Option RelayState :=
  match relay.phase with
  | .sending sender outgoing =>
      match relay.receiver outgoing.channel with
      | none =>
          let (manager, outcome) := relay.manager.resume false outgoing.resume
          some (relay.settle sender manager outcome)
      | some connection =>
          if isFull connection then none
          else
            let (manager, outcome) := relay.manager.resume true outgoing.resume
            some ((relay.deliver outgoing.channel connection
              outgoing.message).settle sender manager outcome)
  | _ => none

/-! ## Handlers -/

/-- What is left of a connection after a step. -/
def putHandler (socket : Socket) (connection : Connection) :
    Option Handler → RelayState
  | none => relay.dropConnection socket
  | some handler => relay.setConnection socket { connection with handler }

def applyEffect (socket : Socket) (connection : Connection) (effect : Effect) :
    Option RelayState :=
  let moved := relay.putHandler socket connection effect.rest
  match effect.task connection.connId with
  | none => some moved
  | some task =>
      if effect.awaitsRoom then
        if relay.hasRoom then some (moved.enqueue ⟨some socket, task⟩)
        else none
      else some (moved.enqueueOrDefer ⟨some socket, task⟩)

def step : Event → Option RelayState
  | .arrive =>
      if relay.hasRoom then some (relay.enqueue ⟨none, .accept⟩) else none
  | .shutdown =>
      if relay.hasRoom then some (relay.enqueue ⟨none, .shutdown⟩) else none
  | .receive now => relay.receive settings now
  | .send => relay.send
  | .flush index =>
      match relay.deferred[index]? with
      | none => none
      | some envelope =>
          if relay.hasRoom then
            some ({ relay with deferred := relay.deferred.eraseIdx index }.enqueue
              envelope)
          else none
  | .connection socket event => do
      let connection ← relay.connections.lookup socket
      let effect ← connection.handler.step socket connection.connId event
      relay.applyEffect socket connection effect
  | .recv socket late => do
      let connection ← relay.connections.lookup socket
      let message ← connection.buffer.head?
      let effect ← connection.handler.receive late message
      relay.applyEffect socket
        { connection with buffer := connection.buffer.tail } effect

end RelayState

/-! ## Channels and outcomes by cases -/

section Channels

variable {relay : RelayState} {channel socket : Socket}
  {before after : Connection} {message : ConnTask}

theorem receiver_eq_some :
    relay.receiver channel = some before ↔
      relay.connections.lookup channel = some before ∧
        before.handler.isOpen = true := by
  rw [RelayState.receiver, Option.filter_eq_some_iff]

/-- A delivered message is at the end of the buffer of an open handler. -/
theorem lookup_deliver (hreceiver : relay.receiver channel = some before)
    (hlookup : (relay.deliver channel before message).connections.lookup
      socket = some after) :
    relay.connections.lookup socket = some after ∧ socket ≠ channel ∨
      socket = channel ∧ before.handler.isOpen = true ∧
        relay.connections.lookup channel = some before ∧
        after = { before with buffer := before.buffer ++ [message] } := by
  obtain ⟨hbefore, hopen⟩ := receiver_eq_some.mp hreceiver
  simp only [RelayState.deliver, RelayState.setConnection,
    Table.lookup_insert] at hlookup
  split at hlookup
  · rename_i heq
    cases hlookup
    exact .inr ⟨heq, hopen, hbefore, rfl⟩
  · rename_i hne
    exact .inl ⟨hlookup, hne⟩

theorem settle_trySend (relay : RelayState) (sender : Option Socket)
    (manager : Manager) (channel : Socket) (message : ConnTask) :
    let settled : RelayState := { relay with manager, phase := .idle }
    relay.settle sender manager (.trySend channel message) = settled ∨
      ∃ connection, relay.receiver channel = some connection ∧
        relay.settle sender manager (.trySend channel message) =
          settled.deliver channel connection message := by
  simp only [RelayState.settle]
  split
  · exact .inl rfl
  · rename_i connection hreceiver
    split
    · exact .inl rfl
    · exact .inr ⟨connection, hreceiver, rfl⟩

end Channels

/-! ## Steps by cases -/

section Steps

variable (relay : RelayState)

/-- What a step of a handler does to the relay: the handler goes on or ends, and
its task, if any, is queued or deferred. -/
structure Moved (socket : Socket) (connection : Connection) (effect : Effect)
    (next : RelayState) : Prop where
  manager : next.manager = relay.manager
  phase : next.phase = relay.phase
  nextSocket : next.nextSocket = relay.nextSocket
  retired : next.retired = relay.retired
  connections : next.connections =
    (relay.putHandler socket connection effect.rest).connections
  tasks :
    (next.queue =
          relay.queue ++
              (effect.task connection.connId).toList.map (⟨some socket, ·⟩) ∧
        next.deferred = relay.deferred) ∨
      (next.queue = relay.queue ∧ next.deferred =
        relay.deferred ++
          (effect.task connection.connId).toList.map (⟨some socket, ·⟩))

/-- A handler's own step, or its step with the next message of its channel. -/
inductive Moves (socket : Socket) (before : Connection) (effect : Effect) :
    List ConnTask → Prop
  | step {event : ConnEvent}
      (hstep : before.handler.step socket before.connId event = some effect) :
      Moves socket before effect before.buffer
  | receive {late : Bool} {message : ConnTask} {buffer : List ConnTask}
      (hbuffer : before.buffer = message :: buffer)
      (hreceive : before.handler.receive late message = some effect) :
      Moves socket before effect buffer

variable (settings : Settings)

/-- The steps of the relay. -/
inductive Step : Event → RelayState → Prop
  | arrive : Step .arrive (relay.enqueue ⟨none, .accept⟩)
  | shutdown : Step .shutdown (relay.enqueue ⟨none, .shutdown⟩)
  | receive {now : Instant} {envelope : Envelope} {queue : List Envelope}
      (hphase : relay.phase = .idle) (hqueue : relay.queue = envelope :: queue) :
      Step (.receive now) ({ relay with
        queue
        clock := now
        retired := relay.retiredBy envelope.task ++ relay.retired }.settle
          envelope.sender
          (relay.manager.handle settings now envelope.task).1
          (relay.manager.handle settings now envelope.task).2)
  | sendClosed {sender : Option Socket} {outgoing : Outgoing}
      (hphase : relay.phase = .sending sender outgoing)
      (hclosed : relay.receiver outgoing.channel = none) :
      Step .send (relay.settle sender
        (relay.manager.resume false outgoing.resume).1
        (relay.manager.resume false outgoing.resume).2)
  | sendOpen {sender : Option Socket} {outgoing : Outgoing}
      {connection : Connection}
      (hphase : relay.phase = .sending sender outgoing)
      (hopen : relay.receiver outgoing.channel = some connection)
      (hroom : ¬RelayState.isFull connection = true) :
      Step .send ((relay.deliver outgoing.channel connection
        outgoing.message).settle sender
          (relay.manager.resume true outgoing.resume).1
          (relay.manager.resume true outgoing.resume).2)
  | flush {index : ℕ} {envelope : Envelope}
      (hget : relay.deferred[index]? = some envelope) :
      Step (.flush index)
        ({ relay with deferred := relay.deferred.eraseIdx index }.enqueue
          envelope)
  | move {event : Event} {socket : Socket} {before : Connection} {effect : Effect}
      {buffer : List ConnTask} {next : RelayState}
      (hlookup : relay.connections.lookup socket = some before)
      (hmoves : Moves socket before effect buffer)
      (hmoved : Moved relay socket { before with buffer } effect next) :
      Step event next

variable {relay settings}

theorem moved_of_applyEffect {socket : Socket} {connection : Connection}
    {effect : Effect} {next : RelayState}
    (heffect : relay.applyEffect socket connection effect = some next) :
    Moved relay socket connection effect next := by
  have hput : ∀ rest,
      let moved := relay.putHandler socket connection rest
      moved.manager = relay.manager ∧ moved.phase = relay.phase ∧
        moved.nextSocket = relay.nextSocket ∧
        moved.retired = relay.retired ∧ moved.queue = relay.queue ∧
        moved.deferred = relay.deferred := by
    rintro (_ | _) <;> exact ⟨rfl, rfl, rfl, rfl, rfl, rfl⟩
  obtain ⟨hmanager, hphase, hnext, hretired, hqueue, hdeferred⟩ :=
    hput effect.rest
  unfold RelayState.applyEffect at heffect
  split at heffect
  · rename_i htask
    cases heffect
    exact ⟨hmanager, hphase, hnext, hretired, rfl,
      .inl ⟨by simpa [htask] using hqueue, hdeferred⟩⟩
  · rename_i task htask
    split at heffect
    · split at heffect
      · cases heffect
        exact ⟨hmanager, hphase, hnext, hretired, rfl,
          .inl ⟨by simp [RelayState.enqueue, htask, hqueue], hdeferred⟩⟩
      · cases heffect
    · cases heffect
      unfold RelayState.enqueueOrDefer
      split
      · exact ⟨hmanager, hphase, hnext, hretired, rfl,
          .inl ⟨by simp [RelayState.enqueue, htask, hqueue], hdeferred⟩⟩
      · exact ⟨hmanager, hphase, hnext, hretired, rfl,
          .inr ⟨hqueue, by simp [htask, hdeferred]⟩⟩

/-- Every step is one of `Step`. -/
theorem step_of_step {event : Event} {next : RelayState}
    (hstep : relay.step settings event = some next) :
    Step relay settings event next := by
  cases event with
  | arrive =>
      simp only [RelayState.step] at hstep
      split at hstep <;> cases hstep
      exact .arrive
  | shutdown =>
      simp only [RelayState.step] at hstep
      split at hstep <;> cases hstep
      exact .shutdown
  | receive now =>
      simp only [RelayState.step, RelayState.receive] at hstep
      split at hstep
      · rename_i hphase hqueue
        split at hstep <;> cases hstep
        exact .receive hphase hqueue
      · cases hstep
  | send =>
      simp only [RelayState.step, RelayState.send] at hstep
      split at hstep
      · rename_i hphase
        split at hstep
        · rename_i hclosed
          cases hstep
          exact .sendClosed hphase hclosed
        · rename_i hopen
          split at hstep <;> cases hstep
          rename_i hroom
          exact .sendOpen hphase hopen hroom
      · cases hstep
  | flush index =>
      simp only [RelayState.step] at hstep
      split at hstep
      · cases hstep
      · rename_i hget
        split at hstep <;> cases hstep
        exact .flush hget
  | connection socket event =>
      simp only [RelayState.step, Option.bind_eq_bind,
        Option.bind_eq_some_iff] at hstep
      obtain ⟨before, hlookup, effect, heffect, hstep⟩ := hstep
      exact .move hlookup (.step heffect) (moved_of_applyEffect hstep)
  | recv socket late =>
      simp only [RelayState.step, Option.bind_eq_bind,
        Option.bind_eq_some_iff] at hstep
      obtain ⟨before, hlookup, message, hhead, effect, heffect, hstep⟩ := hstep
      exact .move hlookup
        (.receive (List.eq_cons_of_mem_head? hhead) heffect)
        (moved_of_applyEffect hstep)

section Moves

variable {socket other : Socket} {before connection after : Connection}
  {effect : Effect} {buffer : List ConnTask} {next : RelayState}

/-- After a handler's step the other connections are as before. -/
theorem Moved.lookup (hmoved : Moved relay socket connection effect next)
    (hlookup : next.connections.lookup other = some after) :
    other ≠ socket ∧ relay.connections.lookup other = some after ∨
      other = socket ∧ ∃ handler, effect.rest = some handler ∧
        after = { connection with handler } := by
  rw [hmoved.connections] at hlookup
  cases hrest : effect.rest with
  | none =>
      rw [hrest] at hlookup
      simp only [RelayState.putHandler, RelayState.dropConnection,
        Table.lookup_erase] at hlookup
      split at hlookup
      · cases hlookup
      · rename_i hne
        exact .inl ⟨hne, hlookup⟩
  | some handler =>
      rw [hrest] at hlookup
      simp only [RelayState.putHandler, RelayState.setConnection,
        Table.lookup_insert] at hlookup
      split at hlookup
      · rename_i heq
        cases hlookup
        exact .inr ⟨heq, handler, rfl, rfl⟩
      · rename_i hne
        exact .inl ⟨hne, hlookup⟩

/-- Either the first step, or one of a started handler. -/
theorem Moves.cases (hmoves : Moves socket before effect buffer)
    {handler : Handler} (hrest : effect.rest = some handler) :
    before.handler = .initial ∧ handler.Started ∧ buffer = before.buffer ∨
      before.handler ≠ .initial ∧ before.handler.Follows handler := by
  cases hmoves with
  | step hstep =>
      by_cases hinitial : before.handler = .initial
      · exact .inl ⟨hinitial, Handler.started_of_step hinitial hstep hrest, rfl⟩
      · exact .inr ⟨hinitial, Handler.step_follows hinitial hstep hrest⟩
  | receive hbuffer hreceive =>
      exact .inr ⟨Handler.ne_initial_of_receive hreceive,
        Handler.receive_follows hreceive hrest⟩

theorem Moves.suffix (hmoves : Moves socket before effect buffer) :
    buffer <:+ before.buffer := by
  cases hmoves with
  | step => exact List.suffix_refl _
  | receive hbuffer =>
      rw [hbuffer]
      exact List.suffix_cons _ _

theorem Moves.sends (hmoves : Moves socket before effect buffer)
    {task : ManagerTask} (htask : effect.task before.connId = some task) :
    before.handler.Sends socket before.connId task effect.rest := by
  cases hmoves with
  | step hstep => exact Handler.step_sends hstep htask
  | receive _ hreceive =>
      rw [Handler.receive_task hreceive] at htask
      cases htask

/-- What a handler's step queues or defers is its own task. -/
theorem Moved.mem_tasks (hmoved : Moved relay socket connection effect next)
    {envelope : Envelope}
    (hmem : envelope ∈ next.queue ++ next.deferred) :
    envelope ∈ relay.queue ++ relay.deferred ∨
      ∃ task, effect.task connection.connId = some task ∧
        envelope = ⟨some socket, task⟩ := by
  have hnew : envelope ∈ (effect.task connection.connId).toList.map
      (Envelope.mk (some socket)) → ∃ task,
        effect.task connection.connId = some task ∧
          envelope = ⟨some socket, task⟩ := by
    intro hmem
    obtain ⟨task, htask, rfl⟩ := List.mem_map.mp hmem
    exact ⟨task, Option.mem_toList.mp htask, rfl⟩
  rcases hmoved.tasks with ⟨hqueue, hdeferred⟩ | ⟨hqueue, hdeferred⟩ <;>
    rw [hqueue, hdeferred] at hmem <;>
    simp only [List.mem_append] at hmem ⊢ <;>
    tauto

end Moves

end Steps

/-- Runs of the relay from its start. -/
def relaySystem (settings : Settings) : Transition.System RelayState Event :=
  .ofPartial (· = .init) (RelayState.step settings)

/-! ## Scripted connections -/

/-- An administrator's first frame in namespace 0. -/
def adminRequest (request : PbConnRequest) : ConnEvent :=
  .request ⟨.fromLease Auth.adminKeyId true 0, .v2, none, false, request⟩

/-- A request with the temporary credential of namespace 5. -/
def guestRequest (request : PbConnRequest) : ConnEvent :=
  .request ⟨.fromLease ⟨5, by decide⟩ false 0, .v2, none, false, request⟩

/-- A connection is accepted as `socket` and sends its first frame, and the
manager takes its first task. -/
def connect (socket : Socket) (first : ConnEvent) : List Event :=
  [.arrive, .receive 0, .connection socket first, .connection socket .post,
    .receive 0]

end PbMapper.Relay

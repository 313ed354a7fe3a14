import PbMapper.Relay.System
import Mathlib.Logic.Function.Basic

/-!
# Steps of the relay without its buffers

What a step does to everything but the messages on their way to a handler: the
manager and its phase, the queues, and the handlers with their identities.  The
manager changes in two kinds of steps only, when it takes a task and when its
pending send returns, so an invariant of the manager is checked against its two
operations.
-/

namespace PbMapper.Relay

/-- The phase an outcome leads to. -/
def Outcome.phase (sender : Option Socket) : Outcome → Phase
  | .send outgoing => .sending sender outgoing
  | .stop => .stopped
  | _ => .idle

/-- The identity a new connection gets. -/
def Outcome.spawned : Outcome → Option RemoteConnId
  | .spawn connId => some connId
  | _ => none

/-- Identities and handlers by socket. -/
abbrev Parties := Socket → Option (RemoteConnId × Handler)

namespace RelayState

def parties (relay : RelayState) : Parties := fun socket =>
  (relay.connections.lookup socket).map fun connection =>
    (connection.connId, connection.handler)

section Connections

variable (relay : RelayState)

theorem parties_setConnection (socket : Socket) (connection : Connection) :
    (relay.setConnection socket connection).parties =
      Function.update relay.parties socket
        (some (connection.connId, connection.handler)) := by
  funext other
  simp only [parties, setConnection, Table.lookup_insert, Function.update_apply]
  split <;> rfl

theorem parties_putHandler (socket : Socket) (connection : Connection)
    (rest : Option Handler) :
    (relay.putHandler socket connection rest).parties =
      Function.update relay.parties socket
        (rest.map (connection.connId, ·)) := by
  cases rest with
  | none =>
      funext other
      simp only [parties, putHandler, dropConnection, Table.lookup_erase,
        Function.update_apply]
      split <;> rfl
  | some handler => exact relay.parties_setConnection socket _

variable {relay} {channel : Socket} {connection : Connection}

theorem parties_deliver (hreceiver : relay.receiver channel = some connection)
    (message : ConnTask) :
    (relay.deliver channel connection message).parties = relay.parties := by
  have hparty : relay.parties channel =
      some (connection.connId, connection.handler) := by
    rw [parties, (receiver_eq_some.mp hreceiver).1, Option.map_some]
  rw [deliver, parties_setConnection, ← hparty, Function.update_eq_self]

end Connections

section Settle

variable (relay : RelayState) (sender : Option Socket) (manager : Manager)
  (outcome : Outcome)

/-- Settling an outcome leaves the queues and the clock alone. -/
structure Settled (next : RelayState) : Prop where
  manager : next.manager = manager
  phase : next.phase = outcome.phase sender
  queue : next.queue = relay.queue
  deferred : next.deferred = relay.deferred
  clock : next.clock = relay.clock
  parties : next.parties = match outcome.spawned with
    | none => relay.parties
    | some connId => Function.update relay.parties relay.nextSocket
        (some (connId, .initial))
  nextSocket : next.nextSocket =
    relay.nextSocket + outcome.spawned.toList.length

theorem settled_settle :
    Settled relay sender manager outcome
      (relay.settle sender manager outcome) := by
  cases outcome with
  | trySend channel message =>
      rcases settle_trySend relay sender manager channel message with
        hsettle | ⟨connection, hreceiver, hsettle⟩ <;>
        rw [hsettle]
      · exact ⟨rfl, rfl, rfl, rfl, rfl, rfl, rfl⟩
      · exact ⟨rfl, rfl, rfl, rfl, rfl, parties_deliver hreceiver message, rfl⟩
  | spawn connId =>
      exact ⟨rfl, rfl, rfl, rfl, rfl, parties_setConnection _ _ _, rfl⟩
  | _ => exact ⟨rfl, rfl, rfl, rfl, rfl, rfl, rfl⟩

variable {relay sender manager outcome} {next : RelayState}

/-- A new connection takes a free socket; the others stay as they are. -/
theorem Settled.keeps (hsettled : Settled relay sender manager outcome next)
    (haccepted : ∀ socket, relay.nextSocket ≤ socket →
      relay.parties socket = none) :
    (∀ socket, next.nextSocket ≤ socket → next.parties socket = none) ∧
      (∀ socket connId handler,
        next.parties socket = some (connId, handler) →
          relay.parties socket = some (connId, handler) ∨
            handler = .initial ∧ outcome.spawned = some connId) ∧
      ∀ socket party, relay.parties socket = some party →
        next.parties socket = some party := by
  have hparties := hsettled.parties
  have hnextSocket := hsettled.nextSocket
  cases hspawned : outcome.spawned with
  | none =>
      rw [hspawned] at hparties hnextSocket
      rw [hparties, hnextSocket]
      exact ⟨haccepted, fun _ _ _ => .inl, fun _ _ => id⟩
  | some connId =>
      rw [hspawned] at hparties hnextSocket
      dsimp only at hparties
      rw [hparties, hnextSocket]
      refine ⟨fun socket hle => ?_, fun socket other handler hparty => ?_,
        fun socket party hparty => ?_⟩
      · have hlt : relay.nextSocket < socket := hle
        rw [Function.update_of_ne hlt.ne']
        exact haccepted socket hlt.le
      · rw [Function.update_apply] at hparty
        split at hparty
        · cases hparty
          exact .inr ⟨rfl, rfl⟩
        · exact .inl hparty
      · have hne : socket ≠ relay.nextSocket := by
          rintro rfl
          rw [haccepted _ le_rfl] at hparty
          cases hparty
        rw [Function.update_of_ne hne]
        exact hparty

end Settle

end RelayState

open RelayState

/-! ## Steps by cases -/

/-- The manager, its phase, the clock and the socket numbers are as before. -/
structure ManagerRests (relay next : RelayState) : Prop where
  manager : next.manager = relay.manager
  phase : next.phase = relay.phase
  clock : next.clock = relay.clock
  nextSocket : next.nextSocket = relay.nextSocket

/-- A step of a handler: an event of its own, or the next message of its
channel. -/
inductive HandlerMove (socket : Socket) (connId : RemoteConnId)
    (before : Handler) (effect : Effect) : Event → Prop
  | step {event : ConnEvent}
      (hstep : before.step socket connId event = some effect) :
      HandlerMove socket connId before effect (.connection socket event)
  | receive {late : Bool} {message : ConnTask}
      (hreceive : before.receive late message = some effect) :
      HandlerMove socket connId before effect (.recv socket late)

/-- Flushing takes one envelope out. -/
theorem mem_of_eraseIdx {Value : Type*} {list : List Value} {index : ℕ}
    {value other : Value} (hget : list[index]? = some value)
    (hmem : other ∈ list) : other = value ∨ other ∈ list.eraseIdx index := by
  obtain ⟨position, hposition⟩ := List.mem_iff_getElem?.mp hmem
  by_cases heq : position = index
  · rw [heq, hget] at hposition
    exact .inl (Option.some.inj hposition).symm
  · exact .inr (List.mem_eraseIdx_iff_getElem?.mpr ⟨position, heq, hposition⟩)

/-- What a step does to the relay, apart from the buffers of its channels. -/
inductive RelayMove (settings : Settings) (relay next : RelayState) :
    Event → Prop
  | enqueues {event : Event} {task : ManagerTask}
      (hevent : event = .arrive ∨ event = .shutdown)
      (htask : task = .accept ∨ task = .shutdown)
      (hrests : ManagerRests relay next)
      (hqueue : next.queue = relay.queue ++ [⟨none, task⟩])
      (hdeferred : next.deferred = relay.deferred)
      (hparties : next.parties = relay.parties) :
      RelayMove settings relay next event
  | flushes {index : ℕ} {envelope : Envelope}
      (hget : relay.deferred[index]? = some envelope)
      (hrests : ManagerRests relay next)
      (hqueue : next.queue = relay.queue ++ [envelope])
      (hdeferred : next.deferred = relay.deferred.eraseIdx index)
      (hparties : next.parties = relay.parties) :
      RelayMove settings relay next (.flush index)
  | moves {event : Event} {socket : Socket} {connId : RemoteConnId}
      {before : Handler} {effect : Effect}
      (hbefore : relay.parties socket = some (connId, before))
      (hmoves : HandlerMove socket connId before effect event)
      (hrests : ManagerRests relay next)
      (hparties : next.parties =
        Function.update relay.parties socket (effect.rest.map (connId, ·)))
      (htasks : (next.queue =
            relay.queue ++ (effect.task connId).toList.map (⟨some socket, ·⟩) ∧
          next.deferred = relay.deferred) ∨
        (next.queue = relay.queue ∧ next.deferred =
          relay.deferred ++ (effect.task connId).toList.map (⟨some socket, ·⟩) ∧
          effect.awaitsRoom = false)) :
      RelayMove settings relay next event
  | handles {now : Instant} {envelope : Envelope} {queue : List Envelope}
      (hphase : relay.phase = .idle) (hqueue : relay.queue = envelope :: queue)
      (hnow : relay.clock ≤ now)
      (hsettled : Settled { relay with queue, clock := now } envelope.sender
        (relay.manager.handle settings now envelope.task).1
        (relay.manager.handle settings now envelope.task).2 next) :
      RelayMove settings relay next (.receive now)
  | resumes {sender : Option Socket} {outgoing : Outgoing} {sent : Bool}
      (hphase : relay.phase = .sending sender outgoing)
      (hsent : sent = (relay.receiver outgoing.channel).isSome)
      (hsettled : Settled relay sender
        (relay.manager.resume sent outgoing.resume).1
        (relay.manager.resume sent outgoing.resume).2 next) :
      RelayMove settings relay next .send

section Moves

variable {settings : Settings} {relay next : RelayState} {event : Event}

theorem relayMove_applyEffect {socket : Socket} {connection : Connection}
    {effect : Effect}
    (hbefore : relay.parties socket =
      some (connection.connId, connection.handler))
    (hmoves : HandlerMove socket connection.connId connection.handler effect
      event)
    (heffect : relay.applyEffect socket connection effect = some next) :
    RelayMove settings relay next event := by
  have hput : ∀ rest, ManagerRests relay
        (relay.putHandler socket connection rest) ∧
      (relay.putHandler socket connection rest).queue = relay.queue ∧
      (relay.putHandler socket connection rest).deferred = relay.deferred := by
    rintro (_ | _) <;> exact ⟨⟨rfl, rfl, rfl, rfl⟩, rfl, rfl⟩
  obtain ⟨hrests, hqueue, hdeferred⟩ := hput effect.rest
  have hparties := relay.parties_putHandler socket connection effect.rest
  unfold RelayState.applyEffect at heffect
  split at heffect
  · rename_i htask
    cases heffect
    exact .moves hbefore hmoves hrests hparties
      (.inl ⟨by simpa [htask] using hqueue, hdeferred⟩)
  · rename_i task htask
    split at heffect
    · split at heffect <;> cases heffect
      exact .moves hbefore hmoves ⟨hrests.1, hrests.2, hrests.3, hrests.4⟩
        hparties (.inl ⟨by simp [RelayState.enqueue, htask, hqueue], hdeferred⟩)
    · rename_i hawaits
      cases heffect
      unfold RelayState.enqueueOrDefer
      split
      · exact .moves hbefore hmoves ⟨hrests.1, hrests.2, hrests.3, hrests.4⟩
          hparties
          (.inl ⟨by simp [RelayState.enqueue, htask, hqueue], hdeferred⟩)
      · exact .moves hbefore hmoves ⟨hrests.1, hrests.2, hrests.3, hrests.4⟩
          hparties
          (.inr ⟨hqueue, by simp [htask, hdeferred],
            Bool.eq_false_iff.mpr hawaits⟩)

theorem settled_deliver {sender : Option Socket} {manager : Manager}
    {outcome : Outcome} {channel : Socket} {connection : Connection}
    {message : ConnTask}
    (hreceiver : relay.receiver channel = some connection)
    (hsettled : Settled (relay.deliver channel connection message) sender
      manager outcome next) :
    Settled relay sender manager outcome next where
  manager := hsettled.manager
  phase := hsettled.phase
  queue := hsettled.queue
  deferred := hsettled.deferred
  clock := hsettled.clock
  parties := by
    rw [hsettled.parties, parties_deliver hreceiver]
    rfl
  nextSocket := hsettled.nextSocket

/-- Every step is one of `RelayMove`. -/
theorem relayMove_of_step (hstep : relay.step settings event = some next) :
    RelayMove settings relay next event := by
  cases event with
  | arrive =>
      simp only [RelayState.step] at hstep
      split at hstep <;> cases hstep
      exact .enqueues (.inl rfl) (.inl rfl) ⟨rfl, rfl, rfl, rfl⟩ rfl rfl rfl
  | shutdown =>
      simp only [RelayState.step] at hstep
      split at hstep <;> cases hstep
      exact .enqueues (.inr rfl) (.inr rfl) ⟨rfl, rfl, rfl, rfl⟩ rfl rfl rfl
  | receive now =>
      simp only [RelayState.step, RelayState.receive] at hstep
      split at hstep
      · rename_i hphase hqueue
        split at hstep <;> cases hstep
        rename_i hnow
        obtain ⟨hmanager, hnextPhase, hnextQueue, hdeferred, hclock, hparties,
          hnextSocket⟩ := settled_settle _ _ _ _
        exact .handles hphase hqueue hnow ⟨hmanager, hnextPhase, hnextQueue,
          hdeferred, hclock, hparties, hnextSocket⟩
      · cases hstep
  | send =>
      simp only [RelayState.step, RelayState.send] at hstep
      split at hstep
      · rename_i hphase
        split at hstep
        · rename_i hclosed
          cases hstep
          exact .resumes hphase (by rw [hclosed]; rfl) (settled_settle _ _ _ _)
        · rename_i hopen
          split at hstep <;> cases hstep
          exact .resumes hphase (by rw [hopen]; rfl)
            (settled_deliver hopen (settled_settle _ _ _ _))
      · cases hstep
  | flush index =>
      simp only [RelayState.step] at hstep
      split at hstep
      · cases hstep
      · rename_i hget
        split at hstep <;> cases hstep
        exact .flushes hget ⟨rfl, rfl, rfl, rfl⟩ rfl rfl rfl
  | connection socket event =>
      simp only [RelayState.step, Option.bind_eq_bind,
        Option.bind_eq_some_iff] at hstep
      obtain ⟨before, hlookup, effect, heffect, hstep⟩ := hstep
      have hbefore : relay.parties socket =
          some (before.connId, before.handler) := by
        rw [parties, hlookup, Option.map_some]
      exact relayMove_applyEffect hbefore (.step heffect) hstep
  | recv socket late =>
      simp only [RelayState.step, Option.bind_eq_bind,
        Option.bind_eq_some_iff] at hstep
      obtain ⟨before, hlookup, message, -, effect, heffect, hstep⟩ := hstep
      have hbefore : relay.parties socket =
          some (before.connId, before.handler) := by
        rw [parties, hlookup, Option.map_some]
      refine relayMove_applyEffect ?_ ?_ hstep
      · exact hbefore
      · exact .receive heffect

end Moves

/-! ## Invariants of the manager -/

/-- What a function of the manager and the task it takes emits along a run. -/
def RelayState.handling {Output : Type*}
    (emit : Manager → Instant → ManagerTask → List Output)
    (relay : RelayState) : Event → List Output
  | .receive now =>
      match relay.phase, relay.queue with
      | .idle, envelope :: _ => emit relay.manager now envelope.task
      | _, _ => []
  | _ => []

section Invariants

variable {settings : Settings} {condition : RelayState → Event → Prop}

/-- The invariant rule for what the manager, its phase, the clock and a log
say. -/
theorem loggedInvariant_of_reachable {Output : Type*}
    {emit : Manager → Instant → ManagerTask → List Output}
    {motive : Manager → Phase → Instant → List Output → Prop}
    (hinitial : motive .new .idle 0 [])
    (hhandle : ∀ (relay : RelayState) (now : Instant) (envelope : Envelope)
      (queue : List Envelope) (log : List Output),
      relay.phase = .idle → relay.queue = envelope :: queue →
      condition relay (.receive now) → relay.clock ≤ now →
      motive relay.manager .idle relay.clock log →
        motive (relay.manager.handle settings now envelope.task).1
          ((relay.manager.handle settings now envelope.task).2.phase
            envelope.sender) now
          (log ++ emit relay.manager now envelope.task))
    (hresume : ∀ (relay : RelayState) (sender : Option Socket)
      (outgoing : Outgoing) (sent : Bool) (log : List Output),
      relay.phase = .sending sender outgoing →
      sent = (relay.receiver outgoing.channel).isSome →
      condition relay .send →
      motive relay.manager (.sending sender outgoing) relay.clock log →
        motive (relay.manager.resume sent outgoing.resume).1
          ((relay.manager.resume sent outgoing.resume).2.phase sender)
            relay.clock log)
    {relay : RelayState} {log : List Output}
    (hreachable : (((relaySystem settings).restrict condition).logging
      (RelayState.handling emit)).Reachable (relay, log)) :
    motive relay.manager relay.phase relay.clock log := by
  refine hreachable.invariant (motive := fun logged =>
    motive logged.1.manager logged.1.phase logged.1.clock logged.2) ?_ ?_
  · rintro ⟨_, _⟩ ⟨rfl, rfl⟩
    exact hinitial
  · rintro ⟨before, log⟩ event ⟨after, longer⟩ hbefore
      ⟨⟨hcondition, hstep⟩, hlonger⟩
    obtain rfl : longer = log ++ before.handling emit event := hlonger
    have hrests : ManagerRests before after →
        before.handling emit event = [] →
        motive after.manager after.phase after.clock
          (log ++ before.handling emit event) := by
      intro hrests hnone
      rw [hrests.manager, hrests.phase, hrests.clock, hnone, List.append_nil]
      exact hbefore
    cases relayMove_of_step hstep with
    | enqueues hevent _ hmanager =>
        exact hrests hmanager (by rcases hevent with rfl | rfl <;> rfl)
    | flushes _ hmanager => exact hrests hmanager rfl
    | moves _ hmoves hmanager =>
        exact hrests hmanager (by cases hmoves <;> rfl)
    | handles hphase hqueue hnow hsettled =>
        rw [hsettled.manager, hsettled.phase, hsettled.clock,
          RelayState.handling, hphase, hqueue]
        exact hhandle before _ _ _ log hphase hqueue hcondition hnow
          (hphase ▸ hbefore)
    | resumes hphase hsent hsettled =>
        rw [hsettled.manager, hsettled.phase, hsettled.clock,
          show before.handling emit .send = [] from rfl, List.append_nil]
        exact hresume before _ _ _ log hphase hsent hcondition
          (hphase ▸ hbefore)

/-- The invariant rule for what the manager and its phase say. -/
theorem managerInvariant_of_reachable {motive : Manager → Phase → Prop}
    (hinitial : motive .new .idle)
    (hhandle : ∀ (relay : RelayState) (now : Instant) (envelope : Envelope),
      condition relay (.receive now) → motive relay.manager .idle →
        motive (relay.manager.handle settings now envelope.task).1
          ((relay.manager.handle settings now envelope.task).2.phase
            envelope.sender))
    (hresume : ∀ (relay : RelayState) (sender : Option Socket)
      (outgoing : Outgoing) (sent : Bool),
      relay.phase = .sending sender outgoing →
      sent = (relay.receiver outgoing.channel).isSome →
      condition relay .send → motive relay.manager (.sending sender outgoing) →
        motive (relay.manager.resume sent outgoing.resume).1
          ((relay.manager.resume sent outgoing.resume).2.phase sender))
    {relay : RelayState}
    (hreachable : ((relaySystem settings).restrict condition).Reachable
      relay) :
    motive relay.manager relay.phase := by
  obtain ⟨log, hlogged⟩ : ∃ log, (((relaySystem settings).restrict
    condition).logging (RelayState.handling fun _ _ _ =>
      ([] : List Unit))).Reachable (relay, log) := hreachable.logged
  refine loggedInvariant_of_reachable
    (motive := fun manager phase _ _ => motive manager phase) hinitial
    ?_ ?_ hlogged
  · exact fun relay now envelope _ _ _ _ hcondition _ hbefore =>
      hhandle relay now envelope hcondition hbefore
  · exact fun relay sender outgoing sent _ hphase hsent hcondition hbefore =>
      hresume relay sender outgoing sent hphase hsent hcondition hbefore

end Invariants

end PbMapper.Relay

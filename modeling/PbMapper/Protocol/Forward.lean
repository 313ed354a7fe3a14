import PbMapper.Core.Error
import PbMapper.Foundation.Transition

/-!
# Bidirectional forwarding

`start_forward` copies between two connections until both directions have ended
or one has failed.  Readers and writers are abstract, as the traits are; the
peers of both connections are part of the state, so that a run interleaves what
they send and when they close with every read and every partial write.
Transport errors and idle timeouts are not modelled.
-/

namespace PbMapper.Protocol

open PbMapper.Core

/-! ## Readers and writers -/

/-- What one `read` finds in the bytes that have arrived. -/
inductive ReadOutcome (Reader : Type) where
  | pending (reader : Reader)
  | chunk (bytes : List UInt8) (consumed : ℕ) (reader : Reader)
  | failed (error : Error)

class ForwardReader (Reader : Type) where
  /-- The reader, the bytes that have arrived, and whether the peer's end of
  stream follows them. -/
  read : Reader → List UInt8 → Bool → ReadOutcome Reader

class ForwardWriter (Writer : Type) where
  /-- The bytes one `write` puts on the wire. -/
  write : Writer → List UInt8 → Except Error (List UInt8 × Writer)

/-- The reader and the writer both ends of one connection start from. -/
structure Endpoint (Reader Writer : Type) where
  reader : Reader
  writer : Writer

/-- A connection: what its peer has sent and the forwarder has not read, what
the forwarder has written, and whether either direction is closed.  `said` is
what the peer means by all it has sent. -/
structure Socket (Writer : Type) where
  peerWriter : Writer
  said : List UInt8
  incoming : List UInt8
  ended : Bool
  outgoing : List UInt8
  shut : Bool

def Socket.init {Writer : Type} (writer : Writer) : Socket Writer :=
  ⟨writer, [], [], false, [], false⟩

/-! ## One direction -/

/-- The future of `copy_with_activity`, between two of its steps. -/
structure CopyState (Reader Writer : Type) where
  reader : Reader
  writer : Writer
  length : ℕ
  /-- The rest of the write in progress and the size of its chunk. -/
  writing : Option (List UInt8 × ℕ)
  result : Option (Except Error ℕ)

namespace CopyState

variable {Reader Writer PeerWriter : Type} [ForwardReader Reader]
  [ForwardWriter Writer]

def init (reader : Reader) (writer : Writer) : CopyState Reader Writer :=
  ⟨reader, writer, 0, none, none⟩

def isDone (copy : CopyState Reader Writer) : Bool := copy.result.isSome

def failed (copy : CopyState Reader Writer) : Bool :=
  match copy.result with
  | some (.error _) => true
  | _ => false

def unwritten (copy : CopyState Reader Writer) : List UInt8 :=
  match copy.writing with
  | some (wire, _) => wire
  | none => []

/-- One `read` over the first `available` unread bytes, and the start of the
write it leads to. -/
def poll (copy : CopyState Reader Writer) (source : Socket PeerWriter)
    (target : Socket Writer) (available : ℕ) :
    CopyState Reader Writer × Socket PeerWriter × Socket Writer :=
  match ForwardReader.read copy.reader (source.incoming.take available)
      (source.ended && source.incoming.length ≤ available) with
  | .pending reader => ({ copy with reader := reader }, source, target)
  | .failed error =>
      ({ copy with result := some (.error error) }, source, target)
  | .chunk bytes consumed reader =>
      let source :=
        { source with incoming := source.incoming.drop consumed }
      let copy := { copy with reader := reader }
      if bytes.length = 0 then
        ({ copy with result := some (.ok copy.length) }, source,
          { target with shut := true })
      else
        match ForwardWriter.write copy.writer bytes with
        | .error error =>
            ({ copy with result := some (.error error) }, source, target)
        | .ok (wire, writer) =>
            ({ copy with writer := writer, writing := some (wire, bytes.length) },
              source, target)

/-- The target accepts `accepted` more bytes of the write in progress. -/
def flush (copy : CopyState Reader Writer) (target : Socket Writer)
    (accepted : ℕ) : CopyState Reader Writer × Socket Writer :=
  match copy.writing with
  | none => (copy, target)
  | some (wire, chunk) =>
      let target := { target with outgoing := target.outgoing ++ wire.take accepted }
      match wire.drop accepted with
      | [] => ({ copy with writing := none, length := copy.length + chunk }, target)
      | rest => ({ copy with writing := some (rest, chunk) }, target)

end CopyState

/-! ## Both directions -/

/-- `start_forward` between a client and a server connection. -/
structure ForwardState (ClientReader ClientWriter ServerReader ServerWriter :
    Type) where
  client : Socket ClientWriter
  server : Socket ServerWriter
  clientToServer : CopyState ClientReader ServerWriter
  serverToClient : CopyState ServerReader ClientWriter
  returned : Bool

inductive Side where
  | client
  | server
deriving DecidableEq, Repr

inductive ForwardEvent where
  /-- The peer on `side` sends one message. -/
  | send (side : Side) (message : List UInt8)
  /-- The peer on `side` closes its sending direction. -/
  | close (side : Side)
  /-- The direction reading from `side` is polled for a chunk. -/
  | poll (side : Side) (available : ℕ)
  /-- The write of the direction reading from `side` makes progress. -/
  | flush (side : Side) (accepted : ℕ)
deriving DecidableEq, Repr

def maxPlaintextLen : ℕ := 8 * 1024 * 1024

/-- A peer's message: forwarders write no empty chunk and read at most
`MAX_PLAINTEXT_LEN` bytes at once. -/
def MessageFits (message : List UInt8) : Prop :=
  0 < message.length ∧ message.length ≤ maxPlaintextLen

instance (message : List UInt8) : Decidable (MessageFits message) :=
  inferInstanceAs (Decidable (_ ∧ _))

/-- The peer writes `message` to its end of the connection. -/
def Socket.send {Writer : Type} [ForwardWriter Writer] (socket : Socket Writer)
    (message : List UInt8) : Option (Socket Writer) :=
  if socket.ended = false ∧ MessageFits message then
    match ForwardWriter.write socket.peerWriter message with
    | .error _ => none
    | .ok (wire, peerWriter) =>
        some { socket with
          peerWriter := peerWriter
          said := socket.said ++ message
          incoming := socket.incoming ++ wire }
  else none

namespace ForwardState

variable {ClientReader ClientWriter ServerReader ServerWriter : Type}
  [ForwardReader ClientReader] [ForwardWriter ClientWriter]
  [ForwardReader ServerReader] [ForwardWriter ServerWriter]

def init (client : Endpoint ClientReader ClientWriter)
    (server : Endpoint ServerReader ServerWriter) :
    ForwardState ClientReader ClientWriter ServerReader ServerWriter where
  client := .init client.writer
  server := .init server.writer
  clientToServer := .init client.reader server.writer
  serverToClient := .init server.reader client.writer
  returned := false

/-- The end of one `select!` round: a failed direction or two finished ones end
the loop, and returning drops both connections. -/
def settle (state :
    ForwardState ClientReader ClientWriter ServerReader ServerWriter) :
    ForwardState ClientReader ClientWriter ServerReader ServerWriter :=
  if state.clientToServer.failed || state.serverToClient.failed ||
      (state.clientToServer.isDone && state.serverToClient.isDone) then
    { state with
      client := { state.client with shut := true }
      server := { state.server with shut := true }
      returned := true }
  else state

def pollClient (state :
    ForwardState ClientReader ClientWriter ServerReader ServerWriter)
    (available : ℕ) :
    ForwardState ClientReader ClientWriter ServerReader ServerWriter :=
  let (copy, client, server) :=
    state.clientToServer.poll state.client state.server available
  { state with clientToServer := copy, client := client, server := server }

def pollServer (state :
    ForwardState ClientReader ClientWriter ServerReader ServerWriter)
    (available : ℕ) :
    ForwardState ClientReader ClientWriter ServerReader ServerWriter :=
  let (copy, server, client) :=
    state.serverToClient.poll state.server state.client available
  { state with serverToClient := copy, client := client, server := server }

def step (state :
    ForwardState ClientReader ClientWriter ServerReader ServerWriter) :
    ForwardEvent →
    Option (ForwardState ClientReader ClientWriter ServerReader ServerWriter)
  | .send .client message => do
      let client ← state.client.send message
      return { state with client := client }
  | .send .server message => do
      let server ← state.server.send message
      return { state with server := server }
  | .close .client =>
      some { state with client := { state.client with ended := true } }
  | .close .server =>
      some { state with server := { state.server with ended := true } }
  | .poll .client available =>
      if state.returned = false ∧ state.clientToServer.result = none ∧
          state.clientToServer.writing = none then
        some (state.pollClient available).settle
      else none
  | .poll .server available =>
      if state.returned = false ∧ state.serverToClient.result = none ∧
          state.serverToClient.writing = none then
        some (state.pollServer available).settle
      else none
  | .flush .client accepted =>
      if state.returned = false ∧ state.clientToServer.result = none then
        let (copy, server) := state.clientToServer.flush state.server accepted
        some { state with clientToServer := copy, server := server }
      else none
  | .flush .server accepted =>
      if state.returned = false ∧ state.serverToClient.result = none then
        let (copy, client) := state.serverToClient.flush state.client accepted
        some { state with serverToClient := copy, client := client }
      else none

end ForwardState

def forwardSystem {ClientReader ClientWriter ServerReader ServerWriter : Type}
    [ForwardReader ClientReader] [ForwardWriter ClientWriter]
    [ForwardReader ServerReader] [ForwardWriter ServerWriter]
    (client : Endpoint ClientReader ClientWriter)
    (server : Endpoint ServerReader ServerWriter) :
    Transition.System
      (ForwardState ClientReader ClientWriter ServerReader ServerWriter)
      ForwardEvent :=
  .ofPartial (fun state => state = .init client server) ForwardState.step

/-! ## What the peers get -/

/-- What a peer reads from the bytes written to it. -/
def receive {Reader : Type} [ForwardReader Reader] :
    ℕ → Reader → List UInt8 → List UInt8
  | 0, _, _ => []
  | fuel + 1, reader, wire =>
      match ForwardReader.read reader wire false with
      | .chunk bytes consumed reader =>
          bytes ++ receive fuel reader (wire.drop consumed)
      | _ => []

/-- The bytes and the ends of stream both peers have got. -/
structure Deliveries where
  toClient : List UInt8
  clientEnd : Bool
  toServer : List UInt8
  serverEnd : Bool
deriving DecidableEq, Repr

namespace ForwardState

variable {ClientReader ClientWriter ServerReader ServerWriter : Type}
  [ForwardReader ClientReader] [ForwardReader ServerReader]

def deliveries (client : Endpoint ClientReader ClientWriter)
    (server : Endpoint ServerReader ServerWriter)
    (state :
      ForwardState ClientReader ClientWriter ServerReader ServerWriter) :
    Deliveries where
  toClient := receive state.client.outgoing.length client.reader
    state.client.outgoing
  clientEnd := state.client.shut
  toServer := receive state.server.outgoing.length server.reader
    state.server.outgoing
  serverEnd := state.server.shut

/-- What forwarding is for: each peer gets what the other has sent, and its end
of stream. -/
def intended (state :
    ForwardState ClientReader ClientWriter ServerReader ServerWriter) :
    Deliveries where
  toClient := state.server.said
  clientEnd := state.server.ended
  toServer := state.client.said
  serverEnd := state.client.ended

/-- A direction that can only wait for its source. -/
def Waits {Reader Writer PeerWriter : Type} [ForwardReader Reader]
    (copy : CopyState Reader Writer) (source : Socket PeerWriter) : Prop :=
  copy.result.isSome ∨ copy.writing = none ∧
    ∃ reader, ForwardReader.read copy.reader source.incoming source.ended =
      .pending reader

/-- The forwarder has returned or waits for its peers. -/
def Quiescent (state :
    ForwardState ClientReader ClientWriter ServerReader ServerWriter) : Prop :=
  state.returned = true ∨
    Waits state.clientToServer state.client ∧
      Waits state.serverToClient state.server

/-- Returning, the forwarder has brought both directions to their own end of
stream. -/
def StopsAtEnds (state :
    ForwardState ClientReader ClientWriter ServerReader ServerWriter) : Prop :=
  state.returned = true →
    state.clientToServer.isDone = true ∧ state.serverToClient.isDone = true

end ForwardState

end PbMapper.Protocol

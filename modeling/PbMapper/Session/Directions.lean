import Mathlib.Data.List.Flatten
import Mathlib.Data.List.Perm.Subperm
import PbMapper.Session.OneWriter

/-!
# The keys and counters of whole histories

A history is a number of connections, each with the run of its client and of its
handler, in any interleaving.  A session that is handed over is a value that moves,
so one connection at most takes it; and so every session has one response writer
and uses no key and counter twice.
-/

namespace PbMapper.Session

open PbMapper.Core MachineWord Protocol
open Auth
open Relay hiding Effect

/-! ## The client's direction -/

section Clients

variable {serializer : MessageSerializer} {clients : Socket → ClientHeaderSession}
  {socket : Socket} {added : List SessionEntry} {writer : HeaderMessageWriter}

/-- The writer of `write_initial`. -/
def firstFlight (session : ClientHeaderSession) : V2MessageWriter :=
  ⟨session.v2Material, .clientToServer, 0⟩

variable (clients socket) in
/-- The first flight and what the continuation writer has sent after it. -/
def Flown (writer : HeaderMessageWriter) (added : List SessionEntry) : Prop :=
  Wrote socket (.v2 (firstFlight (clients socket))) writer added

variable (clients socket) in
def Asked (added : List SessionEntry) : Prop :=
  ∃ messages, added = seals socket (firstFlight (clients socket)) messages

theorem Flown.asked (hflown : Flown clients socket writer added) :
    Asked clients socket added := by
  rw [Flown] at hflown
  generalize hfirst : HeaderMessageWriter.v2 _ = first at hflown
  cases hflown with
  | legacy hlegacy => exact ⟨[], rfl⟩
  | v2 hv2 messages =>
      rw [← hfirst] at hv2
      cases hv2
      exact ⟨messages, rfl⟩

/-- The continuation writer goes on where the first flight ends. -/
theorem appends_writeInitial (message : List UInt8) :
    Effect.Appends Desk.log (writeInitial clients socket message)
      (fun _ added => Flown clients socket (.v2 (clients socket).continuationWriter)
        added)
      (Asked clients socket) := by
  have hnone : Asked clients socket [] := ⟨[], rfl⟩
  have hone : Flown clients socket (.v2 (clients socket).continuationWriter)
      [(socket, .sealed (firstFlight (clients socket)) message)] := .v2 rfl [message]
  rw [writeInitial]
  refine (silent_ask Answer.wrote).bind hnone fun wrote => ?_
  refine (silent_orFail .writeInitial wrote).bind hnone fun _ => ?_
  apply ((appends_writeMsgOr (appends_writeMsg_v2 _ message) .writeInitial).mono
    (fun _ _ hsealed => hsealed) ?_).bind
  · rintro _ _ ⟨rfl, rfl⟩
    exact Effect.Appends.pure hone
  · rintro _ (rfl | rfl)
    · exact hnone
    · exact hone.asked

theorem Flown.appends (hflown : Flown clients socket writer added)
    (error : ConnError) (message : List UInt8) :
    Effect.Appends Desk.log (writeMsgOr error socket writer message)
      (fun next later => Flown clients socket next (added ++ later))
      (fun later => Asked clients socket (added ++ later)) := by
  apply (appends_writeMsgOr (appends_writeMsg writer message) error).mono
  · intro next later hnext
    exact hnext.2 _ _ hflown
  · rintro later ⟨last, hlast⟩
    exact Flown.asked (hlast.2 _ _ hflown)

/-- A turn of the client's control writer. -/
theorem appends_clientTurn {protocolVersion : ℕ}
    (hflown : Flown clients socket writer added) :
    Effect.Appends Desk.log (clientTurn serializer socket protocolVersion writer)
      (fun ended later => Sum.elim (Flown clients socket)
        (fun _ => Asked clients socket) ended (added ++ later))
      (fun later => Asked clients socket (added ++ later)) := by
  have hstays : Asked clients socket (added ++ []) := by
    rw [List.append_nil]
    exact hflown.asked
  rw [clientTurn]
  refine (silent_ask Answer.control).bind hstays fun control => ?_
  split
  · exact Effect.Appends.pure hstays
  · refine (silent_orFail _ _).bind hstays fun message => ?_
    apply (hflown.appends .writePingMsg message).bind
    intro next later hnext
    apply Effect.Appends.pure
    rwa [List.append_nil]
  · refine (silent_orFail _ _).bind hstays fun message => ?_
    apply (hflown.appends .writeStreamAckMsg message).bind
    intro next later hnext
    apply Effect.Appends.pure
    rwa [List.append_nil]

/-- Whatever a client does on a connection, its messages are at consecutive
counters from its first flight on. -/
theorem leaves_runErrand (errand : Errand) :
    Leaves (runErrand serializer clients socket errand) (Asked clients socket) := by
  cases errand with
  | exchange payload =>
      rw [runErrand, exchange]
      apply (appends_writeInitial payload).bind
      intro _ added hflown
      have hasked : Asked clients socket (added ++ []) := by
        rw [List.append_nil]
        exact hflown.asked
      refine (silent_ask Answer.wrote).bind hasked fun _ => ?_
      exact Effect.Appends.pure hasked
  | serve payload =>
      rw [runErrand, runServerSideCli]
      apply (appends_writeInitial payload).bind
      intro _ added hflown
      have hasked : Asked clients socket (added ++ []) := by
        rw [List.append_nil]
        exact hflown.asked
      refine (silent_ask Answer.registered).bind hasked fun registered => ?_
      split
      · exact appends_fail _ hasked
      · exact appends_forever _ (Flown clients socket) (fun _ _ => appends_clientTurn)
          (fun _ _ => Flown.asked) hflown

end Clients

/-! ## What a log says of its sessions -/

def SessionEvent.isCreated : SessionEvent → Bool
  | .created => true
  | .sealed _ _ | .handedOver | .received => false

def SessionEvent.isHandedOver : SessionEvent → Bool
  | .handedOver => true
  | .created | .sealed _ _ | .received => false

/-- A direction's key and a counter under which a message is sealed. -/
def SessionEvent.use : SessionEvent → Option (AesKeyType × ℕ)
  | .sealed writer _ =>
      some (directionKey writer.material writer.direction, writer.counter)
  | .created | .handedOver | .received => none

/-- What a writer of the session does. -/
def SessionEvent.isStroke (event : SessionEvent) : Bool :=
  event.isCreated || event.use.isSome

/-- The sessions over which response writers were made, each as often as one was. -/
def responseWriters (log : List SessionEntry) : List Socket :=
  (log.filter fun entry => entry.2.isCreated).map Prod.fst

def handovers (log : List SessionEntry) : List Socket :=
  (log.filter fun entry => entry.2.isHandedOver).map Prod.fst

def takings (log : List SessionEntry) : List Socket :=
  (log.filter fun entry => entry.2.isReceived).map Prod.fst

def strokes (socket : Socket) (log : List SessionEntry) : List SessionEntry :=
  log.filter fun entry => entry.1 == socket && entry.2.isStroke

/-- The key and counter of each message that was sealed over the session. -/
def uses (socket : Socket) (log : List SessionEntry) : List (AesKeyType × ℕ) :=
  (strokes socket log).filterMap fun entry => entry.2.use

section Strokes

variable {socket other : Socket} {log : List SessionEntry}

@[simp]
theorem takings_append (first second : List SessionEntry) :
    takings (first ++ second) = takings first ++ takings second := by
  rw [takings, List.filter_append, List.map_append, takings, takings]

@[simp]
theorem strokes_append (first second : List SessionEntry) :
    strokes socket (first ++ second) =
      strokes socket first ++ strokes socket second :=
  List.filter_append ..

theorem strokes_flatMap {Owner : Type} (owners : List Owner)
    (logOf : Owner → List SessionEntry) :
    strokes socket (owners.flatMap logOf) =
      owners.flatMap fun owner => strokes socket (logOf owner) :=
  List.filter_flatMap

theorem uses_append (first second : List SessionEntry) :
    uses socket (first ++ second) = uses socket first ++ uses socket second := by
  rw [uses, strokes_append, List.filterMap_append, uses, uses]

/-- The uses of a session are those of its writers. -/
theorem uses_strokes : uses socket (strokes socket log) = uses socket log := by
  have htwice : strokes socket (strokes socket log) = strokes socket log := by
    rw [strokes, List.filter_eq_self]
    intro entry hentry
    exact (List.mem_filter.mp hentry).2
  rw [uses, htwice, uses]

theorem mem_handovers : socket ∈ handovers log ↔ (socket, .handedOver) ∈ log := by
  simp only [handovers, List.mem_map, List.mem_filter]
  constructor
  · rintro ⟨⟨_, event⟩, ⟨hentry, hhanded⟩, rfl⟩
    cases event <;> first | exact hentry | cases hhanded
  · intro hentry
    exact ⟨_, ⟨hentry, rfl⟩, rfl⟩

theorem mem_takings : socket ∈ takings log ↔ (socket, .received) ∈ log := by
  simp only [takings, List.mem_map, List.mem_filter]
  constructor
  · rintro ⟨⟨_, event⟩, ⟨hentry, htaken⟩, rfl⟩
    cases event <;> first | exact hentry | cases htaken
  · intro hentry
    exact ⟨_, ⟨hentry, rfl⟩, rfl⟩

/-- Taking a session is no stroke. -/
theorem strokes_written : strokes socket (written log) = strokes socket log := by
  rw [strokes, written, List.filter_filter]
  apply List.filter_congr
  rintro ⟨name, event⟩ -
  cases event <;> simp [SessionEvent.isStroke, SessionEvent.isReceived,
    SessionEvent.isCreated, SessionEvent.use]

theorem strokes_seals (writer : V2MessageWriter) (messages : List (List UInt8)) :
    strokes socket (seals socket writer messages) = seals socket writer messages := by
  rw [strokes, List.filter_eq_self]
  intro entry hentry
  obtain ⟨index, message, -, rfl⟩ := mem_seals.mp hentry
  simp [SessionEvent.isStroke, SessionEvent.use]

theorem strokes_of_socket_ne (hlog : ∀ entry ∈ log, entry.1 = socket)
    (hne : other ≠ socket) : strokes other log = [] := by
  rw [strokes, List.filter_eq_nil_iff]
  intro entry hentry
  rw [hlog entry hentry, beq_false_of_ne hne.symm, Bool.false_and]
  exact Bool.false_ne_true

theorem filter_created_seals (writer : V2MessageWriter)
    (messages : List (List UInt8)) :
    (seals socket writer messages).filter (fun entry => entry.2.isCreated) =
    [] := by
  rw [List.filter_eq_nil_iff]
  intro entry hentry
  obtain ⟨index, message, -, rfl⟩ := mem_seals.mp hentry
  exact Bool.false_ne_true

/-- The response writers over a session are among what its writers did. -/
theorem count_responseWriters :
    (responseWriters log).count socket =
      ((strokes socket log).filter fun entry => entry.2.isCreated).length := by
  rw [responseWriters, List.count_eq_length_filter, List.filter_map, List.length_map,
    strokes, List.filter_filter, List.filter_filter]
  congr 1
  apply List.filter_congr
  rintro ⟨name, event⟩ -
  cases event <;> simp [SessionEvent.isStroke, SessionEvent.isCreated]

/-- The messages of a writer are at consecutive counters. -/
theorem uses_seals (writer : V2MessageWriter) (messages : List (List UInt8)) :
    uses socket (seals socket writer messages) =
      (List.range messages.length).map fun index =>
        (directionKey writer.material writer.direction, writer.counter + index) := by
  rw [uses, strokes_seals]
  induction messages generalizing writer with
  | nil => rfl
  | cons message messages ih =>
      have hcons : (seals socket writer (message :: messages)).filterMap
            (fun entry => entry.2.use) =
          (directionKey writer.material writer.direction, writer.counter) ::
            (seals socket { writer with counter := writer.counter + 1 }
              messages).filterMap fun entry => entry.2.use := rfl
      rw [hcons, ih, List.length_cons, List.range_succ_eq_map, List.map_cons,
        List.map_map, Nat.add_zero]
      congr 1
      apply List.map_congr_left
      intro index _
      rw [Function.comp_apply, Nat.add_assoc, Nat.add_comm 1]

theorem nodup_uses_seals (writer : V2MessageWriter)
    (messages : List (List UInt8)) :
    (uses socket (seals socket writer messages)).Nodup := by
  rw [uses_seals]
  apply List.Nodup.map _ List.nodup_range
  intro index later heq
  exact Nat.add_left_cancel (Prod.mk.inj heq).2

end Strokes

/-! ## One writer's log -/

section OneWriter

variable {sessions : Socket → ServerHeaderSession AuthContext}
  {socket other : Socket} {log : List SessionEntry}
  {session : ServerHeaderSession AuthContext}

/-- What one writer leaves is the writer, then its messages in its direction. -/
theorem OneWriter.cases (hone : OneWriter session socket log) :
    log = [] ∨ log = [(socket, .created)] ∨
      ∃ material messages, session.v2 = some material ∧
        log = (socket, .created) ::
          seals socket ⟨material, .serverToClient, 0⟩ messages := by
  cases hone with
  | none => exact .inl rfl
  | @one first _ log hfirst hwrote =>
      right
      cases hwrote with
      | legacy _ => exact .inl rfl
      | @v2 writer hwriter messages =>
          right
          rw [hwriter, ServerHeaderSession.responseWriter,
            ServerHeaderSession.v2Material] at hfirst
          split at hfirst
          · cases hfirst
          · split at hfirst
            · rename_i material hmaterial
              cases hfirst
              exact ⟨material, messages, hmaterial, rfl⟩
            · cases hfirst

theorem OneWriter.mem (hone : OneWriter session socket log) {entry : SessionEntry}
    (hentry : entry ∈ log) : entry.1 = socket ∧ entry.2.isStroke = true := by
  rcases hone.cases with rfl | rfl | ⟨material, messages, -, rfl⟩
  · cases hentry
  · rw [List.mem_singleton] at hentry
    subst hentry
    exact ⟨rfl, rfl⟩
  · rw [List.mem_cons, mem_seals] at hentry
    rcases hentry with rfl | ⟨index, message, -, rfl⟩ <;> exact ⟨rfl, rfl⟩

theorem OneWriter.strokes_self (hone : OneWriter session socket log) :
    strokes socket log = log := by
  rw [strokes, List.filter_eq_self]
  intro entry hentry
  obtain ⟨hsocket, hstroke⟩ := hone.mem hentry
  rw [hsocket, hstroke, beq_self_eq_true, Bool.true_and]

theorem OneWriter.strokes_of_ne (hone : OneWriter session socket log)
    (hne : other ≠ socket) : strokes other log = [] :=
  strokes_of_socket_ne (fun _ hentry => (hone.mem hentry).1) hne

/-- Over its session one writer is made at most. -/
theorem OneWriter.length_created (hone : OneWriter session socket log) :
    (log.filter fun entry => entry.2.isCreated).length ≤ 1 := by
  rcases hone.cases with rfl | rfl | ⟨material, messages, -, rfl⟩
  · exact Nat.zero_le 1
  · exact Nat.le_refl 1
  · rw [List.filter_cons_of_pos rfl, filter_created_seals]
    exact Nat.le_refl 1

/-- The uses of a response writer are of the server's direction. -/
theorem OneWriter.uses (hone : OneWriter session socket log) :
    (uses socket log).Nodup ∧ ∀ use ∈ uses socket log, ∃ material,
      session.v2 = some material ∧ use.1 = directionKey material .serverToClient := by
  rcases hone.cases with rfl | rfl | ⟨material, messages, hmaterial, rfl⟩
  · exact ⟨.nil, fun _ huse => absurd huse List.not_mem_nil⟩
  · rw [Session.uses, hone.strokes_self]
    exact ⟨.nil, fun _ huse => absurd huse List.not_mem_nil⟩
  · have huses : Session.uses socket ((socket, .created) ::
        seals socket ⟨material, .serverToClient, 0⟩ messages) =
        Session.uses socket
          (seals socket ⟨material, .serverToClient, 0⟩ messages) := by
      rw [Session.uses, hone.strokes_self, Session.uses, strokes_seals]
      exact List.filterMap_cons_none rfl
    rw [huses]
    refine ⟨nodup_uses_seals _ _, ?_⟩
    rw [uses_seals]
    intro use huse
    obtain ⟨index, -, rfl⟩ := List.mem_map.mp huse
    exact ⟨material, hmaterial, rfl⟩

end OneWriter

/-! ## Histories -/

/-- The two ends of every connection, by its socket. -/
structure Ends where
  serializer : MessageSerializer
  sessions : Socket → ServerHeaderSession AuthContext
  clients : Socket → ClientHeaderSession
  /-- Keys that were derived under the labels of the two directions differ. -/
  keysApart : ∀ socket material, (sessions socket).v2 = some material →
    directionKey material .serverToClient ≠
      directionKey (clients socket).v2Material .clientToServer

/-- A connection, and how the waits of its programs end. -/
structure Visit where
  socket : Socket
  connId : RemoteConnId
  errand : Errand
  clientAnswers : List Answer
  initial : InitialRead
  serverAnswers : List Answer

namespace Visit

variable (ends : Ends) (visit : Visit)

def clientLog : List SessionEntry :=
  ((runErrand ends.serializer ends.clients visit.socket visit.errand).exec
    ⟨visit.clientAnswers, []⟩).2.log

def serverLog : List SessionEntry :=
  ((handleConn ends.serializer ends.sessions visit.socket visit.connId
    visit.initial).exec ⟨visit.serverAnswers, []⟩).2.log

end Visit

/-- The connections up to some time. -/
structure History (ends : Ends) where
  visits : List Visit
  sockets : (visits.map Visit.socket).Nodup
  /-- A session that is taken from a channel was handed over, and is not copied. -/
  moves : (takings (visits.flatMap (Visit.serverLog ends))).Subperm
    (handovers (visits.flatMap (Visit.serverLog ends)))

namespace History

variable {ends : Ends} (history : History ends)

def asked : List SessionEntry := history.visits.flatMap (Visit.clientLog ends)

def answered : List SessionEntry := history.visits.flatMap (Visit.serverLog ends)

end History

/-! ## The handler's log -/

section Served

variable {sessions : Socket → ServerHeaderSession AuthContext}
  {socket other : Socket} {log : List SessionEntry}

theorem Visited.not_handedOver (hvisited : Visited sessions socket log) :
    (other, .handedOver) ∉ log := by
  intro hentry
  obtain ⟨own, passed, hwritten, hown, hpassed⟩ := hvisited
  have hmem : (other, .handedOver) ∈ written log :=
    List.mem_filter.mpr ⟨hentry, rfl⟩
  rw [hwritten, List.mem_append] at hmem
  rcases hmem with hmem | hmem
  · cases (hown.mem hmem).2
  · rcases hpassed with rfl | ⟨stream, -, hone⟩
    · cases hmem
    · cases (hone.mem hmem).2

/-- A session is handed over by the handler of its own connection, which then has
done nothing else. -/
theorem Served.handedOver (hserved : Served sessions socket log)
    (hentry : (other, .handedOver) ∈ log) :
    other = socket ∧ log = [(socket, .handedOver)] := by
  rcases hserved with rfl | hvisited
  · rw [List.mem_singleton] at hentry
    cases hentry
    exact ⟨rfl, rfl⟩
  · exact absurd hentry hvisited.not_handedOver

/-- Strokes over a session are those of the connection's own handler, or of a handler
that has taken the session. -/
theorem Served.oneWriter (hserved : Served sessions socket log)
    (hnot : (socket, .received) ∉ log) (name : Socket) :
    OneWriter (sessions name) name (strokes name log) ∧
      (strokes name log ≠ [] →
        (name = socket ∧ log ≠ [(socket, .handedOver)]) ∨
          (name, .received) ∈ log) := by
  rcases hserved with rfl | ⟨own, passed, hwritten, hown, hpassed⟩
  · have hnone : strokes name [(socket, .handedOver)] = [] := by
      rw [strokes, List.filter_singleton, SessionEvent.isStroke]
      simp [SessionEvent.isCreated, SessionEvent.use]
    rw [hnone]
    exact ⟨.none, fun hstroke => absurd rfl hstroke⟩
  · have hnothanded : log ≠ [(socket, .handedOver)] := by
      rintro rfl
      exact Visited.not_handedOver ⟨own, passed, hwritten, hown, hpassed⟩
        (List.mem_singleton_self _)
    rw [← strokes_written, hwritten, strokes_append]
    by_cases hname : name = socket
    · have hrest : strokes name passed = [] := by
        rcases hpassed with rfl | ⟨stream, htaken, hone⟩
        · rfl
        · apply hone.strokes_of_ne
          rintro rfl
          exact hnot (hname ▸ htaken)
      subst hname
      rw [hrest, List.append_nil, hown.strokes_self]
      exact ⟨hown, fun _ => .inl ⟨rfl, hnothanded⟩⟩
    · rw [hown.strokes_of_ne hname, List.nil_append]
      rcases hpassed with rfl | ⟨stream, htaken, hone⟩
      · exact ⟨.none, fun hstroke => absurd rfl hstroke⟩
      · by_cases hstream : name = stream
        · subst hstream
          rw [hone.strokes_self]
          exact ⟨hone, fun _ => .inr htaken⟩
        · rw [hone.strokes_of_ne hstream]
          exact ⟨.none, fun hstroke => absurd rfl hstroke⟩

end Served

/-! ## One writer in a history -/

/-- What the whole log of a program is like. -/
theorem Leaves.log {Value : Type} {program : HandlerM Value}
    {holds : List SessionEntry → Prop} (hprogram : Leaves program holds)
    (answers : List Answer) : holds (program.exec ⟨answers, []⟩).2.log := by
  obtain ⟨added, hadded, hended⟩ := hprogram ⟨answers, []⟩
  rw [hadded, List.nil_append]
  split at hended <;> exact hended

namespace Visit

variable (ends : Ends) (visit : Visit)

theorem served_serverLog :
    Served ends.sessions visit.socket (visit.serverLog ends) :=
  (leaves_handleConn visit.connId visit.initial).log visit.serverAnswers

theorem asked_clientLog :
    Session.Asked ends.clients visit.socket (visit.clientLog ends) :=
  (leaves_runErrand visit.errand).log visit.clientAnswers

end Visit

namespace History

variable {ends : Ends} {history : History ends} {visit other : Visit}
  {socket : Socket}

theorem mem_answered {entry : SessionEntry} :
    entry ∈ history.answered ↔
      ∃ visit ∈ history.visits, entry ∈ visit.serverLog ends :=
  List.mem_flatMap

/-- Every connection has its own session. -/
theorem eq_of_socket (hvisit : visit ∈ history.visits)
    (hother : other ∈ history.visits)
    (hsocket : visit.socket = other.socket) : visit = other :=
  List.inj_on_of_nodup_map history.sockets hvisit hother hsocket

theorem handovers_sublist : (handovers history.answered).Sublist
    (history.visits.map Visit.socket) := by
  rw [answered, handovers, List.filter_flatMap, List.map_flatMap,
    List.map_eq_flatMap]
  apply List.Sublist.flatMap_right
  intro visit _
  rcases visit.served_serverLog ends with hlog | hvisited
  · rw [hlog]
    exact .refl _
  · have hnone : handovers (visit.serverLog ends) = [] := by
      rw [List.eq_nil_iff_forall_not_mem]
      intro socket hsocket
      exact hvisited.not_handedOver (mem_handovers.mp hsocket)
    rw [handovers] at hnone
    rw [hnone]
    exact List.nil_sublist _

theorem nodup_takings : (takings history.answered).Nodup := by
  obtain ⟨moved, hperm, hsublist⟩ := history.moves
  have hmoved : moved.Nodup :=
    (hsublist.trans handovers_sublist).nodup history.sockets
  exact hperm.nodup_iff.mp hmoved

/-- A session that was taken is not written over by its connection's handler. -/
theorem handedOver_of_received (hother : other ∈ history.visits)
    (htaken : (visit.socket, .received) ∈ other.serverLog ends)
    (hvisit : visit ∈ history.visits) :
    visit.serverLog ends = [(visit.socket, .handedOver)] := by
  have hmem : visit.socket ∈ takings history.answered :=
    mem_takings.mpr (mem_answered.mpr ⟨other, hother, htaken⟩)
  have hhanded := history.moves.subset hmem
  rw [mem_handovers] at hhanded
  obtain ⟨owner, howner, hentry⟩ := mem_answered.mp hhanded
  obtain ⟨hsocket, hlog⟩ := (owner.served_serverLog ends).handedOver hentry
  rw [eq_of_socket hvisit howner hsocket]
  exact hlog

theorem not_received (hvisit : visit ∈ history.visits) :
    (visit.socket, .received) ∉ visit.serverLog ends := by
  intro htaken
  have hlog := handedOver_of_received hvisit htaken hvisit
  rw [hlog, List.mem_singleton] at htaken
  cases htaken

/-- One connection at most has a writer over a session. -/
theorem pairwise_strokes (history : History ends) (socket : Socket) :
    history.visits.Pairwise fun first second =>
      strokes socket (first.serverLog ends) = [] ∨
        strokes socket (second.serverLog ends) = [] := by
  apply List.pairwise_of_forall_sublist
  intro first second hsublist
  have hfirst : first ∈ history.visits := hsublist.subset List.mem_cons_self
  have hsecond : second ∈ history.visits :=
    hsublist.subset (List.mem_cons_of_mem _ List.mem_cons_self)
  by_contra hboth
  rw [not_or] at hboth
  have hreason := fun visit (hvisit : visit ∈ history.visits) =>
    ((visit.served_serverLog ends).oneWriter (not_received hvisit) socket).2
  rcases hreason first hfirst hboth.1 with ⟨rfl, hwrites⟩ | htaken
  · rcases hreason second hsecond hboth.2 with ⟨hsocket, -⟩ | htaken
    · have hnodup : ([first, second].map Visit.socket).Nodup :=
        (hsublist.map Visit.socket).nodup history.sockets
      rw [List.map_cons, List.map_singleton, hsocket] at hnodup
      exact absurd List.mem_cons_self (List.nodup_cons.mp hnodup).1
    · exact hwrites (handedOver_of_received hsecond htaken hfirst)
  · rcases hreason second hsecond hboth.2 with ⟨rfl, hwrites⟩ | hagain
    · exact hwrites (handedOver_of_received hfirst htaken hsecond)
    · have hnodup : (takings ([first, second].flatMap (Visit.serverLog ends))).Nodup :=
        (((hsublist.flatMap _).filter _).map _).nodup nodup_takings
      rw [List.flatMap_cons, List.flatMap_singleton, takings_append,
        List.nodup_append] at hnodup
      exact hnodup.2.2 socket (mem_takings.mpr htaken) socket
        (mem_takings.mpr hagain) rfl

/-- What is written over a session in the whole history is what one writer leaves. -/
theorem oneWriter_answered (socket : Socket) :
    OneWriter (ends.sessions socket) socket (strokes socket history.answered) := by
  rw [answered, strokes_flatMap]
  rcases Effect.journals_of_pairwise (history.pairwise_strokes socket) with
    hnone | ⟨visit, hvisit, hlog⟩
  · rw [hnone]
    exact .none
  · rw [hlog]
    exact ((visit.served_serverLog ends).oneWriter (not_received hvisit) socket).1

theorem strokes_clientLog (ends : Ends) (visit : Visit) (socket : Socket) :
    Session.Asked ends.clients socket (strokes socket (visit.clientLog ends)) ∧
      (socket ≠ visit.socket → strokes socket (visit.clientLog ends) = []) := by
  obtain ⟨messages, hlog⟩ := visit.asked_clientLog ends
  have hsocket : ∀ entry ∈ visit.clientLog ends, entry.1 = visit.socket := by
    intro entry hentry
    rw [hlog] at hentry
    obtain ⟨index, message, -, rfl⟩ := mem_seals.mp hentry
    rfl
  by_cases hown : socket = visit.socket
  · subst hown
    rw [hlog, strokes_seals]
    exact ⟨⟨messages, rfl⟩, fun hne => absurd rfl hne⟩
  · rw [strokes_of_socket_ne hsocket hown]
    exact ⟨⟨[], rfl⟩, fun _ => rfl⟩

/-- The client's messages of a session are those of its one connection. -/
theorem asked_strokes (socket : Socket) :
    Session.Asked ends.clients socket (strokes socket history.asked) := by
  have hone : history.visits.Pairwise fun first second =>
      strokes socket (first.clientLog ends) = [] ∨
        strokes socket (second.clientLog ends) = [] := by
    apply (List.pairwise_map.mp history.sockets).imp
    intro first second hne
    by_cases hfirst : socket = first.socket
    · exact .inr ((strokes_clientLog ends second socket).2 (hfirst ▸ hne))
    · exact .inl ((strokes_clientLog ends first socket).2 hfirst)
  rw [asked, strokes_flatMap]
  rcases Effect.journals_of_pairwise hone with hnone | ⟨visit, hvisit, hlog⟩
  · rw [hnone]
    exact ⟨[], rfl⟩
  · rw [hlog]
    exact (strokes_clientLog ends visit socket).1

/-- No session has two response writers. -/
theorem count_responseWriters_le (socket : Socket) :
    (responseWriters (history.asked ++ history.answered)).count socket ≤ 1 := by
  obtain ⟨messages, hasked⟩ := history.asked_strokes socket
  rw [count_responseWriters, strokes_append, hasked, List.filter_append,
    filter_created_seals, List.nil_append]
  exact (history.oneWriter_answered socket).length_created

/-- The two directions of a session have no use in common, and neither has one
twice. -/
theorem nodup_uses (socket : Socket) :
    (uses socket (history.asked ++ history.answered)).Nodup := by
  obtain ⟨messages, hasked⟩ := history.asked_strokes socket
  obtain ⟨hnodup, hserver⟩ := (history.oneWriter_answered socket).uses
  rw [uses_strokes] at hnodup hserver
  rw [uses_append, ← uses_strokes, hasked, List.nodup_append]
  refine ⟨nodup_uses_seals _ _, hnodup, ?_⟩
  rintro use huse _ hother rfl
  obtain ⟨material, hmaterial, hkey⟩ := hserver use hother
  rw [uses_seals] at huse
  obtain ⟨index, -, rfl⟩ := List.mem_map.mp huse
  exact ends.keysApart socket material hmaterial hkey.symm

/-- In any interleaving of the connections' programs, one response writer at most is
made over a session, no message of a session is sealed under the key and counter of
another, and the continuation writer of a client goes on after its first flight. -/
theorem oneWriter_of_interleaving (history : History ends)
    {log : List SessionEntry}
    (hlog : log.Perm (history.asked ++ history.answered)) :
    (responseWriters log).Nodup ∧ (∀ socket, (uses socket log).Nodup) ∧
      ∀ visit ∈ history.visits, ∃ messages, visit.clientLog ends =
        seals visit.socket (firstFlight (ends.clients visit.socket)) messages := by
  have hwriters : (responseWriters log).Perm
      (responseWriters (history.asked ++ history.answered)) :=
    (hlog.filter _).map _
  have huses : ∀ socket, (uses socket log).Perm
      (uses socket (history.asked ++ history.answered)) :=
    fun socket => (hlog.filter _).filterMap _
  refine ⟨?_, ?_, ?_⟩
  · rw [hwriters.nodup_iff, List.nodup_iff_count]
    exact count_responseWriters_le
  · intro socket
    rw [(huses socket).nodup_iff]
    exact nodup_uses socket
  · intro visit _
    exact visit.asked_clientLog ends

end History

/-! ## A subscriber, its stream and the provider's control connection -/

section Sample

def Answer.sample : Answer where
  arrival := .closed
  wrote := .ok ()
  sent := true
  permitted := .ok ()
  executed := .ok ""
  late := false
  genRandomKey := .replicate 32 0
  serverTime := 0
  takesCommand := true
  pong := some [5]
  registered := some 2
  control := some (.ping 1)

def Answer.message (task : ConnTask) : Answer :=
  { Answer.sample with arrival := .message task }

def sampleMaterial : V2Material :=
  ⟨adminKeyId, 0, .replicate 16 0, .replicate 32 1, .replicate 32 2⟩

def sampleContext : AuthContext := .fromLease adminKeyId true 0

def sampleService : ScopedService := ⟨sampleContext, 0, ['s'], ['s'], by decide⟩

def Ends.sample : Ends where
  serializer := ⟨fun _ => .ok [1], fun _ => .ok [2], fun _ => .ok [3]⟩
  sessions _ := ⟨.v2, .replicate 32 0, some sampleMaterial, some sampleContext⟩
  clients _ := ⟨.replicate 32 0, sampleMaterial⟩
  keysApart := by
    rintro _ _ ⟨⟩
    decide

def Visit.provider : Visit where
  socket := 0
  connId := ⟨0, by decide⟩
  errand := .serve [7]
  clientAnswers := .replicate 9 .sample
  initial := .request ⟨none, false, .register ['s'] false false (some 2), false⟩
  serverAnswers := [.sample, .sample, .message (.registerResp 1 2 30000), .sample,
    .sample, .sample, .sample]

def Visit.subscriber : Visit where
  socket := 1
  connId := ⟨1, by decide⟩
  errand := .exchange [8]
  clientAnswers := [.sample, .sample]
  initial := .request ⟨none, false, .subcribe ['s'], false⟩
  serverAnswers := [.sample, .sample,
    .message (.subcribeResp ⟨0, by decide⟩ 1 false false),
    .message (.streamResp ⟨0, by decide⟩ 1 ⟨2, sampleService⟩), .sample, .sample,
    .sample, .sample]

def Visit.stream : Visit where
  socket := 2
  connId := ⟨2, by decide⟩
  errand := .exchange [9]
  clientAnswers := [.sample, .sample]
  initial := .request ⟨none, false, .stream ['s'] ⟨1, by decide⟩ 1, false⟩
  serverAnswers := [.sample]

def History.sample : History Ends.sample where
  visits := [.provider, .subscriber, .stream]
  sockets := by decide
  moves := by decide +kernel

theorem oneWriter_of_interleaving_sample :
    let log := (History.sample.asked ++ History.sample.answered).reverse
    responseWriters log = [2, 1, 0] ∧ (uses 0 log).length = 6 ∧
      (responseWriters log).Nodup ∧ ∀ socket, (uses socket log).Nodup := by
  have hone := History.oneWriter_of_interleaving History.sample (List.reverse_perm _)
  exact ⟨by decide +kernel, by decide +kernel, hone.1, hone.2.1⟩

end Sample

end PbMapper.Session

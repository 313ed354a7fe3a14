import PbMapper.Session.Programs

/-!
# One writer for each direction of a session

No run of a connection's programs, however their waits are answered and wherever
they are dropped, makes a second response writer over a session; and no two
messages of a session are sealed under one key and counter.
-/

namespace PbMapper.Session

open PbMapper.Core MachineWord Protocol
open Auth
open Relay hiding Effect

/-! ## What one writer leaves in the log -/

def SessionEvent.isReceived : SessionEvent → Bool
  | .received => true
  | .created | .sealed _ _ | .handedOver => false

/-- What was done, apart from taking sessions from channels. -/
def written (log : List SessionEntry) : List SessionEntry :=
  log.filter fun entry => !entry.2.isReceived

@[simp]
theorem written_append (first second : List SessionEntry) :
    written (first ++ second) = written first ++ written second :=
  List.filter_append ..

/-- The messages of one writer, at consecutive counters. -/
def seals (socket : Socket) : V2MessageWriter → List (List UInt8) → List SessionEntry
  | _, [] => []
  | writer, message :: messages =>
      (socket, .sealed writer message) ::
        seals socket { writer with counter := writer.counter + 1 } messages

/-- A state that a writer comes to by the messages in the log. -/
inductive Wrote (socket : Socket) (first : HeaderMessageWriter) :
    HeaderMessageWriter → List SessionEntry → Prop where
  | legacy {key : AesKeyType} (hfirst : first = .legacy key) :
      Wrote socket first first []
  | v2 {writer : V2MessageWriter} (hfirst : first = .v2 writer)
      (messages : List (List UInt8)) :
      Wrote socket first
        (.v2 { writer with counter := writer.counter + messages.length })
        (seals socket writer messages)

/-- At most one response writer, and what it wrote. -/
inductive OneWriter (session : ServerHeaderSession AuthContext) (socket : Socket) :
    List SessionEntry → Prop where
  | none : OneWriter session socket []
  | one {first last : HeaderMessageWriter} {log : List SessionEntry}
      (hfirst : session.responseWriter = .ok first)
      (hwrote : Wrote socket first last log) :
      OneWriter session socket ((socket, .created) :: log)

section Seals

variable {socket : Socket} {writer : V2MessageWriter}

theorem seals_append (first second : List (List UInt8)) :
    seals socket writer (first ++ second) = seals socket writer first ++
      seals socket { writer with counter := writer.counter + first.length }
        second := by
  induction first generalizing writer with
  | nil => rfl
  | cons message first ih =>
      rw [List.cons_append, seals, seals, ih, List.cons_append, List.length_cons,
        Nat.add_assoc, Nat.add_comm 1]

/-- A message in the log of a writer stands at its counter. -/
theorem mem_seals {messages : List (List UInt8)} {entry : SessionEntry} :
    entry ∈ seals socket writer messages ↔
      ∃ index message, messages[index]? = some message ∧ entry =
        (socket, .sealed { writer with counter := writer.counter + index }
          message) := by
  induction messages generalizing writer with
  | nil => simp [seals]
  | cons message messages ih =>
      rw [seals, List.mem_cons, ih]
      constructor
      · rintro (rfl | ⟨index, later, hget, rfl⟩)
        · exact ⟨0, message, rfl, rfl⟩
        · refine ⟨index + 1, later, hget, ?_⟩
          rw [Nat.add_assoc, Nat.add_comm 1]
      · rintro ⟨_ | index, later, hget, rfl⟩
        · cases hget
          exact .inl rfl
        · refine .inr ⟨index, later, hget, ?_⟩
          rw [Nat.add_assoc, Nat.add_comm 1]

/-- Another message of the same writer. -/
theorem Wrote.next {first : HeaderMessageWriter} {log : List SessionEntry}
    (hwrote : Wrote socket first (.v2 writer) log) (message : List UInt8) :
    Wrote socket first (.v2 { writer with counter := writer.counter + 1 })
      (log ++ [(socket, .sealed writer message)]) := by
  generalize hlast : HeaderMessageWriter.v2 writer = last at hwrote
  cases hwrote with
  | legacy hfirst =>
      rw [hfirst] at hlast
      cases hlast
  | @v2 start hfirst messages =>
      cases hlast
      have hlonger : Wrote socket first _ _ := .v2 hfirst (messages ++ [message])
      rw [seals_append, List.length_append, List.length_singleton,
        ← Nat.add_assoc] at hlonger
      exact hlonger

end Seals

/-! ## Steps -/

section Steps

variable {Value : Type} {done : Value → List SessionEntry → Prop}
  {cut : List SessionEntry → Prop}

theorem silent_ask (read : Answer → Value) :
    Effect.Silent Desk.log (ask read) := by
  intro desk
  rw [ask, Effect.exec_of]
  cases desk.answers <;> rfl

theorem appends_fail (error : ConnError) (hcut : cut []) :
    Effect.Appends Desk.log (fail error : HandlerM Value) done cut :=
  Effect.Appends.throw hcut

theorem silent_pure (value : Value) :
    Effect.Silent Desk.log (pure value : HandlerM Value) :=
  fun _ => rfl

theorem silent_orFail (error : ConnError) (result : Except String Value) :
    Effect.Silent Desk.log (orFail error result) := by
  cases result with
  | ok value => exact silent_pure value
  | error _ => exact fun _ => rfl

theorem appends_note (socket : Socket) (event : SessionEvent) :
    Effect.Appends Desk.log (note socket event)
      (fun _ added => added = [(socket, event)]) cut :=
  fun _ => ⟨_, rfl, rfl⟩

theorem appends_attempt {program : HandlerM Value}
    (hprogram : Effect.Appends Desk.log program done cut) :
    Effect.Appends Desk.log (attempt program)
      (fun result added => match result with
        | .ok value => done value added
        | .error _ => cut added) cut := by
  intro desk
  obtain ⟨added, hadded, hended⟩ := hprogram desk
  refine ⟨added, ?_⟩
  rw [attempt, Effect.exec_of]
  rcases hexec : program.exec desk with ⟨(_ | _) | value, last⟩ <;>
    rw [hexec] at hadded hended <;> exact ⟨hadded, hended⟩

theorem appends_untilCancelled {program : HandlerM Unit}
    (hprogram : Effect.Appends Desk.log program (fun _ => cut) cut) :
    Effect.Appends Desk.log (untilCancelled program) (fun _ => cut) cut := by
  intro desk
  obtain ⟨added, hadded, hended⟩ := hprogram desk
  refine ⟨added, ?_⟩
  rw [untilCancelled, Effect.exec_of]
  rcases hexec : program.exec desk with ⟨(_ | _) | value, last⟩ <;>
    rw [hexec] at hadded hended <;> exact ⟨hadded, hended⟩

/-- A loop, from whatever has been added before it. -/
theorem appends_forever {Loop : Type} (turn : Loop → HandlerM (Loop ⊕ Value))
    (inv : Loop → List SessionEntry → Prop)
    (hturn : ∀ loop added, inv loop added →
      Effect.Appends Desk.log (turn loop)
        (fun ended later => Sum.elim inv done ended (added ++ later))
        (fun later => cut (added ++ later)))
    (hcut : ∀ loop added, inv loop added → cut added) {loop : Loop}
    {added : List SessionEntry} (hinv : inv loop added) :
    Effect.Appends Desk.log (forever turn loop)
      (fun value later => done value (added ++ later))
      (fun later => cut (added ++ later)) := by
  intro desk
  rw [forever, Effect.exec_of]
  exact Effect.Appends.iterate hturn hcut desk.answers.length hinv desk

/-- Nothing but sessions taken from channels is in the log. -/
def Unwritten (log : List SessionEntry) : Prop := written log = []

/-- A stream that arrives is taken with its session. -/
theorem appends_recv :
    Effect.Appends Desk.log recv
      (fun arrival added => Unwritten added ∧
        ∀ serverId generation stream,
          arrival = .message (.streamResp serverId generation stream) →
            (stream.socket, .received) ∈ added)
      Unwritten := by
  rw [recv]
  refine (silent_ask Answer.arrival).bind (rfl : Unwritten []) fun arrival => ?_
  have hother : (∀ serverId generation stream,
      arrival ≠ .message (.streamResp serverId generation stream)) →
      Effect.Appends Desk.log (pure arrival : HandlerM Arrival)
        (fun arrival added => Unwritten added ∧
          ∀ serverId generation stream,
            arrival = .message (.streamResp serverId generation stream) →
              (stream.socket, .received) ∈ added)
        Unwritten := by
    intro hne
    apply Effect.Appends.pure
    exact ⟨rfl, fun serverId generation stream heq =>
      absurd heq (hne serverId generation stream)⟩
  split
  · rename_i serverId generation stream
    apply (appends_note stream.socket .received).bind
    rintro _ _ rfl
    apply Effect.Appends.pure
    refine ⟨rfl, ?_⟩
    rintro _ _ _ ⟨⟩
    exact List.mem_cons_self
  · rename_i hne
    exact hother fun serverId generation stream heq =>
      hne serverId generation stream heq

end Steps

/-! ## Writing -/

section Writing

variable {Value : Type} {sessions : Socket → ServerHeaderSession AuthContext}
  {serializer : MessageSerializer} {socket : Socket} {added later : List SessionEntry}
  {first writer : HeaderMessageWriter}

/-- The program adds the like of `holds`, wherever it ends. -/
def Leaves (program : HandlerM Value) (holds : List SessionEntry → Prop) : Prop :=
  Effect.Appends Desk.log program (fun _ => holds) holds

variable (sessions socket) in
/-- At most one response writer was made over the session. -/
def Own (log : List SessionEntry) : Prop :=
  OneWriter (sessions socket) socket (written log)

/-- Behind `before` stands what a writer wrote until it was in this state. -/
def WroteAfter (before : List SessionEntry) (socket : Socket)
    (first writer : HeaderMessageWriter) (log : List SessionEntry) : Prop :=
  ∃ rest, written log = before ++ rest ∧ Wrote socket first writer rest

variable (sessions socket) in
/-- The one response writer of the session is in this state. -/
def Holds (writer : HeaderMessageWriter) (log : List SessionEntry) : Prop :=
  ∃ first, (sessions socket).responseWriter = .ok first ∧
    WroteAfter [(socket, .created)] socket first writer log

theorem Unwritten.own (hadded : Unwritten added) : Own sessions socket added := by
  rw [Own, hadded]
  exact .none

theorem Holds.own (hholds : Holds sessions socket writer added) :
    Own sessions socket added := by
  obtain ⟨first, hfirst, rest, hwritten, hwrote⟩ := hholds
  rw [Own, hwritten]
  exact .one hfirst hwrote

theorem Unwritten.append (hadded : Unwritten added) (hlater : Unwritten later) :
    Unwritten (added ++ later) := by
  rw [Unwritten, written_append, hadded, hlater, List.append_nil]

theorem Unwritten.own_append (hadded : Unwritten added)
    (hown : Own sessions socket later) : Own sessions socket (added ++ later) := by
  rwa [Own, written_append, hadded, List.nil_append]

theorem Holds.append (hholds : Holds sessions socket writer added)
    (hlater : Unwritten later) : Holds sessions socket writer (added ++ later) := by
  obtain ⟨first, hfirst, rest, hwritten, hwrote⟩ := hholds
  refine ⟨first, hfirst, rest, ?_, hwrote⟩
  rw [written_append, hlater, List.append_nil, hwritten]

/-- After sessions were taken from channels, a program leaves one writer. -/
theorem Leaves.after {program : HandlerM Value}
    (hprogram : Leaves program (Own sessions socket)) (hadded : Unwritten added) :
    Effect.Appends Desk.log program
      (fun _ later => Own sessions socket (added ++ later))
      (fun later => Own sessions socket (added ++ later)) :=
  hprogram.mono (fun _ _ hown => hadded.own_append hown)
    fun _ hown => hadded.own_append hown

section Messages

variable {next : HeaderMessageWriter} {before log : List SessionEntry}

/-- The messages that take a writer to another state. -/
def Advances (socket : Socket) (writer next : HeaderMessageWriter)
    (later : List SessionEntry) : Prop :=
  written later = later ∧ ∀ first log,
    Wrote socket first writer log → Wrote socket first next (log ++ later)

theorem Advances.refl : Advances socket writer writer [] := by
  refine ⟨rfl, fun first log hwrote => ?_⟩
  rwa [List.append_nil]

theorem Advances.sealed (writer : V2MessageWriter) (message : List UInt8) :
    Advances socket (.v2 writer) (.v2 { writer with counter := writer.counter + 1 })
      [(socket, .sealed writer message)] :=
  ⟨rfl, fun _ _ hwrote => hwrote.next message⟩

theorem Advances.after (hnext : Advances socket writer next later)
    (hwrote : WroteAfter before socket first writer log) :
    WroteAfter before socket first next (log ++ later) := by
  obtain ⟨hlater, hadvances⟩ := hnext
  obtain ⟨rest, hwritten, hrest⟩ := hwrote
  refine ⟨rest ++ later, ?_, hadvances first rest hrest⟩
  rw [written_append, hwritten, hlater, List.append_assoc]

/-- A message is sealed at the counter of its writer, unless it is too long. -/
theorem appends_writeMsg_v2 (writer : V2MessageWriter) (message : List UInt8) :
    Effect.Appends Desk.log (writeMsg socket (.v2 writer) message)
      (fun next added =>
        next = .v2 { writer with counter := writer.counter + 1 } ∧
          added = [(socket, .sealed writer message)])
      (fun added => added = [] ∨ added = [(socket, .sealed writer message)]) := by
  rw [writeMsg]
  split
  · exact appends_fail .protocol (.inl rfl)
  · apply (appends_note socket (.sealed writer message)).bind
    rintro _ _ rfl
    refine (silent_ask Answer.wrote).bind (.inr rfl) fun wrote => ?_
    refine (silent_orFail .protocol wrote).bind (.inr rfl) fun _ => ?_
    split
    · exact appends_fail .protocol (.inr rfl)
    · exact Effect.Appends.pure ⟨rfl, rfl⟩

/-- A message advances the writer, and one that fails is the last. -/
theorem appends_writeMsg (writer : HeaderMessageWriter) (message : List UInt8) :
    Effect.Appends Desk.log (writeMsg socket writer message)
      (fun next later => Advances socket writer next later)
      (fun later => ∃ last, Advances socket writer last later) := by
  cases writer with
  | legacy key =>
      rw [writeMsg]
      refine (silent_ask Answer.wrote).bind ⟨_, .refl⟩ fun wrote => ?_
      refine (silent_orFail .protocol wrote).bind ⟨_, .refl⟩ fun _ => ?_
      exact Effect.Appends.pure .refl
  | v2 writer =>
      apply (appends_writeMsg_v2 writer message).mono
      · rintro _ _ ⟨rfl, rfl⟩
        exact .sealed writer message
      · rintro _ (rfl | rfl)
        · exact ⟨_, .refl⟩
        · exact ⟨_, .sealed writer message⟩

/-- Another error in place of the one of `write_msg`. -/
theorem appends_writeMsgOr {done : HeaderMessageWriter → List SessionEntry → Prop}
    {cut : List SessionEntry → Prop} {message : List UInt8}
    (hwrite : Effect.Appends Desk.log (writeMsg socket writer message) done cut)
    (error : ConnError) :
    Effect.Appends Desk.log (writeMsgOr error socket writer message) done cut := by
  rw [writeMsgOr]
  apply (appends_attempt hwrite).bind
  rintro (failed | next) later hlater
  · apply appends_fail
    rwa [List.append_nil]
  · apply Effect.Appends.pure
    rwa [List.append_nil]

end Messages

/-- A message of the response writer. -/
theorem Holds.appends (hholds : Holds sessions socket writer added)
    (error : ConnError) (message : List UInt8) :
    Effect.Appends Desk.log (writeMsgOr error socket writer message)
      (fun next later => Holds sessions socket next (added ++ later))
      (fun later => Own sessions socket (added ++ later)) := by
  obtain ⟨first, hfirst, hwrote⟩ := hholds
  apply (appends_writeMsgOr (appends_writeMsg writer message) error).mono
  · intro next later hlater
    exact ⟨first, hfirst, hlater.after hwrote⟩
  · rintro later ⟨last, hlater⟩
    exact Holds.own ⟨first, hfirst, hlater.after hwrote⟩

/-- A program that makes the response writer and writes one message. -/
theorem Holds.leaves (hholds : Holds sessions socket writer added)
    (error : ConnError) (message : List UInt8) :
    Effect.Appends Desk.log
      (do let _ ← writeMsgOr error socket writer message)
      (fun _ later => Own sessions socket (added ++ later))
      (fun later => Own sessions socket (added ++ later)) := by
  apply (hholds.appends error message).bind
  intro next later hnext
  apply Effect.Appends.pure
  rw [List.append_nil]
  exact hnext.own

theorem appends_responseWriter (error : ConnError) (socket : Socket) :
    Effect.Appends Desk.log (responseWriter sessions error socket)
      (fun writer added => Holds sessions socket writer added)
      (Own sessions socket) := by
  rw [responseWriter]
  cases hwriter : (sessions socket).responseWriter with
  | error failed => exact appends_fail error (Unwritten.own rfl)
  | ok writer =>
      have hwrote : Wrote socket writer writer [] := by
        cases writer with
        | legacy key => exact .legacy rfl
        | v2 writer => exact .v2 rfl []
      have hholds : Holds sessions socket writer [(socket, .created)] :=
        ⟨writer, hwriter, [], rfl, hwrote⟩
      rw [orFail, pure_bind]
      apply (appends_note socket .created).bind
      rintro _ _ rfl
      exact Effect.Appends.pure hholds

/-- Nothing is written before the response writer is made. -/
theorem Leaves.respond {error : ConnError}
    {next : HeaderMessageWriter → HandlerM Value}
    (hnext : ∀ writer added, Holds sessions socket writer added →
      Effect.Appends Desk.log (next writer)
        (fun _ later => Own sessions socket (added ++ later))
        (fun later => Own sessions socket (added ++ later))) :
    Leaves (responseWriter sessions error socket >>= next)
      (Own sessions socket) :=
  (appends_responseWriter error socket).bind hnext

theorem leaves_fail (error : ConnError) :
    Leaves (fail error : HandlerM Value) (Own sessions socket) :=
  appends_fail error (Unwritten.own rfl)

theorem leaves_pure (value : Value) :
    Leaves (pure value : HandlerM Value) (Own sessions socket) :=
  Effect.Appends.pure (Unwritten.own rfl)

/-- A silent step before a program that leaves one writer. -/
theorem Leaves.silent {First : Type} {first : HandlerM First}
    {next : First → HandlerM Value} (hfirst : Effect.Silent Desk.log first)
    (hnext : ∀ value, Leaves (next value) (Own sessions socket)) :
    Leaves (first >>= next) (Own sessions socket) :=
  hfirst.bind (Unwritten.own rfl) hnext

theorem silent_expectSent (error : ConnError) :
    Effect.Silent Desk.log (expectSent error) := by
  rw [expectSent]
  refine (silent_ask Answer.sent).seq fun sent => ?_
  split
  · exact silent_pure ()
  · exact fun _ => rfl

/-- A message is taken before a program that leaves one writer. -/
theorem Leaves.recv {next : Arrival → HandlerM Value}
    (hnext : ∀ arrival, Leaves (next arrival) (Own sessions socket)) :
    Leaves (Session.recv >>= next) (Own sessions socket) := by
  apply (appends_recv.mono (fun _ _ htaken => htaken)
    (fun _ hadded => Unwritten.own hadded)).bind
  rintro arrival added ⟨hadded, -⟩
  exact (hnext arrival).after hadded

/-! ## The handlers -/

theorem leaves_writeProtocolError (failure : AuthFailure) :
    Leaves (writeProtocolError serializer sessions socket failure)
      (Own sessions socket) := by
  rw [writeProtocolError]
  apply Leaves.silent (silent_ask Answer.serverTime)
  intro serverTime
  split
  · exact leaves_pure ()
  · rename_i message hmessage
    apply (appends_attempt (appends_responseWriter .protocol socket)).bind
    rintro (failed | writer) added hadded
    · apply Effect.Appends.pure
      rwa [List.append_nil]
    · obtain ⟨first, hfirst, hwrote⟩ := hadded
      apply (appends_attempt (appends_writeMsg writer message)).mono
        (fun _ _ hlater => hlater) (fun later hlater =>
          Holds.own ⟨first, hfirst, hlater.choose_spec.after hwrote⟩) |>.bind
      rintro (failed | next) later hlater
      · obtain ⟨last, hlast⟩ := hlater
        apply Effect.Appends.pure
        rw [List.append_nil]
        exact Holds.own ⟨first, hfirst, hlast.after hwrote⟩
      · apply Effect.Appends.pure
        rw [List.append_nil]
        exact Holds.own ⟨first, hfirst, hlater.after hwrote⟩

theorem appends_handleStreamReq {writer : HeaderMessageWriter}
    (hholds : Holds sessions socket writer added) (task : ConnTask) :
    Effect.Appends Desk.log (handleStreamReq serializer socket writer task)
      (fun next later => Holds sessions socket next (added ++ later))
      (fun later => Own sessions socket (added ++ later)) := by
  have hstays : Holds sessions socket writer (added ++ []) := by
    rwa [List.append_nil]
  rw [handleStreamReq.eq_def]
  split
  · refine (silent_orFail _ _).bind hstays.own fun message => ?_
    exact hholds.appends _ message
  · exact Effect.Appends.pure hstays

/-- A turn of the control writer goes on with the same writer. -/
theorem appends_controlTurn {writer : HeaderMessageWriter}
    (hholds : Holds sessions socket writer added) :
    Effect.Appends Desk.log (controlTurn serializer socket writer)
      (fun ended later => Sum.elim (Holds sessions socket)
        (fun _ => Own sessions socket) ended (added ++ later))
      (fun later => Own sessions socket (added ++ later)) := by
  have hstays : Holds sessions socket writer (added ++ []) := by
    rwa [List.append_nil]
  rw [controlTurn]
  refine (silent_ask Answer.takesCommand).bind hstays.own fun command => ?_
  split
  · refine (silent_ask Answer.pong).bind hstays.own fun pong => ?_
    split
    · exact Effect.Appends.pure hstays.own
    · rename_i response
      apply (hholds.appends .serverConnWritePongResp response).bind
      intro next later hnext
      apply Effect.Appends.pure
      rwa [List.append_nil]
  · apply (appends_recv.mono (fun _ _ htaken => htaken)
      (fun _ hlater => (hholds.append hlater).own)).bind
    rintro arrival later ⟨hlater, -⟩
    have hlonger : Holds sessions socket writer (added ++ later ++ []) := by
      rw [List.append_nil]
      exact hholds.append hlater
    simp only [← List.append_assoc]
    split
    · exact Effect.Appends.pure hlonger.own
    · rename_i task _
      apply (appends_handleStreamReq (hholds.append hlater) task).bind
      intro next last hnext
      apply Effect.Appends.pure
      rwa [List.append_nil]
    · exact appends_fail _ hlonger.own
    · exact appends_fail _ hlonger.own

theorem leaves_controlWriter (registerResponse : List UInt8) :
    Leaves (controlWriter serializer sessions socket registerResponse)
      (Own sessions socket) := by
  rw [controlWriter]
  apply Leaves.respond
  intro writer added hholds
  apply (hholds.appends .serverConnWriteRegisteredOk registerResponse).bind
  intro next later hnext
  have hloop := appends_forever (controlTurn serializer socket)
    (Holds sessions socket) (fun _ _ => appends_controlTurn)
    (fun _ _ => Holds.own) hnext
  simpa only [← List.append_assoc] using hloop

theorem leaves_handleServerConn (connId : RemoteConnId) :
    Leaves (handleServerConn serializer sessions socket connId)
      (Own sessions socket) := by
  rw [handleServerConn]
  apply Leaves.silent (silent_expectSent _)
  intro _
  apply Leaves.recv
  intro arrival
  split
  · apply Leaves.silent (silent_orFail _ _)
    intro _
    apply Leaves.silent (silent_orFail _ _)
    exact leaves_controlWriter
  · apply Leaves.silent (silent_ask Answer.serverTime)
    intro serverTime
    apply Leaves.silent (silent_orFail _ _)
    intro response
    apply Leaves.respond
    intro writer added hholds
    exact hholds.leaves _ response
  · exact leaves_fail _
  · exact leaves_fail _
  · exact leaves_fail _

/-! ### The subscriber -/

theorem leaves_writeSubscribeResponse (connId serverId : RemoteConnId)
    (codecKey : Option AesKeyType) :
    Leaves (writeSubscribeResponse serializer sessions socket connId serverId
      codecKey) (Own sessions socket) := by
  rw [writeSubscribeResponse]
  apply Leaves.respond
  intro writer added hholds
  have hstays : Own sessions socket (added ++ []) := by
    rw [List.append_nil]
    exact hholds.own
  refine (silent_orFail _ _).bind hstays fun message => ?_
  exact hholds.leaves _ message

theorem leaves_writeSubscribeError (code reason : String) (retryable : Bool) :
    Leaves (writeSubscribeError serializer sessions socket code reason retryable)
      (Own sessions socket) := by
  rw [writeSubscribeError]
  apply Leaves.silent (silent_ask Answer.serverTime)
  intro serverTime
  apply Leaves.silent (silent_orFail _ _)
  intro message
  apply Leaves.respond
  intro writer added hholds
  exact hholds.leaves _ message

variable (sessions socket) in
/-- The stream that is returned was taken from the channel. -/
def Returned (serverStream : ServerStream) (added : List SessionEntry) : Prop :=
  Own sessions socket added ∧ (serverStream.stream.socket, .received) ∈ added

variable (sessions socket) in
/-- After a turn of `get_server_stream` either nothing has been written and the
loop goes on, or a stream is returned. -/
def Streamed : List (RemoteConnId × ℕ) ⊕ ServerStream → List SessionEntry → Prop :=
  Sum.elim (fun _ => Unwritten) (Returned sessions socket)

theorem Streamed.after {ended : List (RemoteConnId × ℕ) ⊕ ServerStream}
    (hstreamed : Streamed sessions socket ended later)
    (hadded : Unwritten added) : Streamed sessions socket ended (added ++ later) := by
  cases ended with
  | inl excluded => exact hadded.append hstreamed
  | inr serverStream =>
      exact ⟨hadded.own_append hstreamed.1, List.mem_append_right _ hstreamed.2⟩

/-- After the message that was taken, the next attempt. -/
theorem appends_excluding {excludedServerConns : List (RemoteConnId × ℕ)}
    {offer : Offer} (hadded : Unwritten added) :
    Effect.Appends Desk.log
      (pure (excluding excludedServerConns offer) :
        HandlerM (List (RemoteConnId × ℕ) ⊕ ServerStream))
      (fun ended later => Streamed sessions socket ended (added ++ later))
      (fun later => Own sessions socket (added ++ later)) := by
  apply Effect.Appends.pure
  rw [List.append_nil]
  exact hadded

/-- The provider is retired before the next attempt. -/
theorem appends_retire {excludedServerConns : List (RemoteConnId × ℕ)}
    {offer : Offer} (hadded : Unwritten added) :
    Effect.Appends Desk.log
      (do
        let _ ← ask Answer.sent
        pure (excluding excludedServerConns offer) :
        HandlerM (List (RemoteConnId × ℕ) ⊕ ServerStream))
      (fun ended later => Streamed sessions socket ended (added ++ later))
      (fun later => Own sessions socket (added ++ later)) := by
  refine (silent_ask Answer.sent).bind ?_ fun _ => appends_excluding hadded
  rw [List.append_nil]
  exact hadded.own

theorem appends_takeStream {connId serverId : RemoteConnId}
    {codecKey : Option AesKeyType} {offer : Offer} {stream : DataStream}
    (hadded : Unwritten added) (htaken : (stream.socket, .received) ∈ added) :
    Effect.Appends Desk.log
      (takeStream serializer sessions socket connId codecKey offer serverId stream)
      (fun ended later => Streamed sessions socket ended (added ++ later))
      (fun later => Own sessions socket (added ++ later)) := by
  rw [takeStream]
  apply ((leaves_writeSubscribeResponse connId serverId codecKey).after hadded).bind
  intro _ later hlater
  apply Effect.Appends.pure
  rw [List.append_nil]
  exact ⟨hlater, List.mem_append_left _ htaken⟩

theorem appends_awaitReady {connId : RemoteConnId}
    {excludedServerConns : List (RemoteConnId × ℕ)} {codecKey : Option AesKeyType}
    {offer : Offer} :
    Effect.Appends Desk.log
      (awaitReady serializer sessions socket connId excludedServerConns codecKey
        offer)
      (Streamed sessions socket) (Own sessions socket) := by
  rw [awaitReady]
  apply (appends_recv.mono (fun _ _ htaken => htaken)
    (fun _ hadded => Unwritten.own hadded)).bind
  rintro arrival added ⟨hadded, htaken⟩
  have hstays : Own sessions socket (added ++ []) := by
    rw [List.append_nil]
    exact hadded.own
  split
  · exact appends_fail _ hstays
  · exact appends_retire hadded
  · rename_i serverId generation stream
    split
    · exact appends_takeStream hadded (htaken serverId generation stream rfl)
    · exact appends_excluding hadded
  · exact appends_fail _ hstays

theorem appends_awaitAck {connId : RemoteConnId}
    {excludedServerConns : List (RemoteConnId × ℕ)} {codecKey : Option AesKeyType}
    {offer : Offer} :
    Effect.Appends Desk.log
      (awaitAck serializer sessions socket connId excludedServerConns codecKey
        offer)
      (Streamed sessions socket) (Own sessions socket) := by
  rw [awaitAck]
  apply (appends_recv.mono (fun _ _ htaken => htaken)
    (fun _ hadded => Unwritten.own hadded)).bind
  rintro arrival added ⟨hadded, htaken⟩
  have hstays : Own sessions socket (added ++ []) := by
    rw [List.append_nil]
    exact hadded.own
  split
  · exact appends_fail _ hstays
  · exact appends_retire hadded
  · rename_i serverId generation stream
    split
    · exact appends_takeStream hadded (htaken serverId generation stream rfl)
    · exact appends_excluding hadded
  · split
    · exact appends_awaitReady.mono (fun _ _ hended => hended.after hadded)
        fun _ hown => hadded.own_append hown
    · exact appends_excluding hadded
  · exact appends_excluding hadded

theorem silent_drawCodecKey (needCodec : Bool) :
    Effect.Silent Desk.log (drawCodecKey needCodec) := by
  rw [drawCodecKey]
  split
  · exact (silent_ask Answer.genRandomKey).seq fun key => silent_pure _
  · exact silent_pure none

theorem appends_attemptTurn {connId : RemoteConnId}
    {excludedServerConns : List (RemoteConnId × ℕ)} :
    Effect.Appends Desk.log
      (attemptTurn serializer sessions socket connId excludedServerConns)
      (Streamed sessions socket) (Own sessions socket) := by
  rw [attemptTurn]
  refine (silent_expectSent _).bind (Unwritten.own rfl) fun _ => ?_
  apply (appends_recv.mono (fun _ _ htaken => htaken)
    (fun _ hadded => Unwritten.own hadded)).bind
  rintro arrival added ⟨hadded, htaken⟩
  have hstays : Own sessions socket (added ++ []) := by
    rw [List.append_nil]
    exact hadded.own
  split
  · exact appends_fail _ hstays
  · exact appends_fail _ hstays
  · rename_i needCodec isDatagram
    refine (silent_drawCodecKey needCodec).bind hstays fun codecKey => ?_
    exact appends_awaitAck.mono (fun _ _ hended => hended.after hadded)
      fun _ hown => hadded.own_append hown
  · rename_i code reason retryable
    apply ((leaves_writeSubscribeError code reason retryable).after hadded).bind
    intro _ later hlater
    apply appends_fail
    rwa [List.append_nil]
  · refine (silent_ask Answer.late).bind hstays fun late => ?_
    split
    · exact appends_fail _ hstays
    · apply Effect.Appends.pure
      rw [List.append_nil]
      exact hadded
  · exact appends_fail _ hstays

theorem appends_getServerStream (connId : RemoteConnId) :
    Effect.Appends Desk.log (getServerStream serializer sessions socket connId)
      (Returned sessions socket) (Own sessions socket) := by
  have hturn : ∀ excluded added, Unwritten added →
      Effect.Appends Desk.log (attemptTurn serializer sessions socket connId excluded)
        (fun ended later => Streamed sessions socket ended (added ++ later))
        (fun later => Own sessions socket (added ++ later)) :=
    fun excluded added hadded => appends_attemptTurn.mono
      (fun _ _ hended => hended.after hadded) fun _ hown => hadded.own_append hown
  have hnone : Unwritten [] := rfl
  exact appends_forever _ (fun _ => Unwritten) hturn (fun _ _ => Unwritten.own) hnone

theorem leaves_forwarding (serverStream : ServerStream) :
    Leaves (forwarding serializer sessions serverStream)
      (Own sessions serverStream.stream.socket) := by
  rw [forwarding]
  apply Leaves.respond
  intro writer added hholds
  have hstays : Own sessions serverStream.stream.socket (added ++ []) := by
    rw [List.append_nil]
    exact hholds.own
  refine (silent_orFail _ _).bind hstays fun message => ?_
  apply (hholds.appends _ message).bind
  intro next later hnext
  have hlast : Own sessions serverStream.stream.socket (added ++ (later ++ [])) := by
    rw [List.append_nil]
    exact hnext.own
  refine (silent_ask Answer.wrote).bind hlast fun _ => ?_
  exact Effect.Appends.pure hlast

variable (sessions socket) in
/-- A visit writes over its own session, and over one that it was given. -/
def Visited (added : List SessionEntry) : Prop :=
  ∃ own passed, written added = own ++ passed ∧
    OneWriter (sessions socket) socket own ∧
    (passed = [] ∨ ∃ stream, (stream, .received) ∈ added ∧
      OneWriter (sessions stream) stream passed)

theorem Own.visited (hown : Own sessions socket added) :
    Visited sessions socket added :=
  ⟨_, [], (List.append_nil _).symm, hown, .inl rfl⟩

theorem leaves_handleClientConn (connId : RemoteConnId) :
    Leaves (handleClientConn serializer sessions socket connId)
      (Visited sessions socket) := by
  rw [handleClientConn]
  apply ((appends_attempt (appends_getServerStream connId)).mono
    (fun _ _ hadded => hadded) (fun _ hown => Own.visited hown)).bind
  rintro (failed | serverStream) added hadded
  · have hstays : Visited sessions socket (added ++ []) := by
      rw [List.append_nil]
      exact Own.visited hadded
    refine (silent_ask Answer.sent).bind hstays fun _ => ?_
    exact appends_fail _ hstays
  · obtain ⟨hown, htaken⟩ := hadded
    have hstays : Visited sessions socket (added ++ []) := by
      rw [List.append_nil]
      exact hown.visited
    dsimp only
    split
    · exact appends_fail _ hstays
    · refine (silent_ask Answer.permitted).bind hstays fun permitted => ?_
      split
      · exact appends_fail _ hstays
      · have hforwarded : ∀ later, Own sessions serverStream.stream.socket later →
            Visited sessions socket (added ++ later) := by
          intro later hlater
          exact ⟨_, _, written_append _ _, hown, .inr
            ⟨_, List.mem_append_left _ htaken, hlater⟩⟩
        apply (appends_attempt (appends_untilCancelled
          ((leaves_forwarding serverStream).mono (fun _ _ hlater => hlater)
            fun _ hlater => hlater)) |>.mono (fun _ _ hlater => hlater)
          hforwarded).bind
        intro result later hlater
        have hended : Visited sessions socket (added ++ (later ++ [])) := by
          rw [List.append_nil]
          apply hforwarded
          cases result <;> exact hlater
        refine (silent_ask Answer.sent).bind hended fun _ => ?_
        cases result with
        | ok value => exact Effect.Appends.pure hended
        | error failed => exact appends_fail _ hended

/-! ### The other handlers -/

theorem leaves_showStatus :
    Leaves (showStatus serializer sessions socket) (Own sessions socket) := by
  rw [showStatus]
  apply Leaves.silent (silent_expectSent _)
  intro _
  apply Leaves.recv
  intro arrival
  split
  · apply Leaves.silent (silent_orFail _ _)
    intro message
    apply Leaves.respond
    intro writer added hholds
    exact hholds.leaves _ message
  · exact leaves_fail _
  · exact leaves_fail _
  · exact leaves_fail _

theorem leaves_handleShowStatus :
    Leaves (handleShowStatus serializer sessions socket) (Own sessions socket) := by
  rw [handleShowStatus]
  apply (appends_attempt leaves_showStatus).bind
  intro result added hadded
  have hown : Own sessions socket (added ++ []) := by
    rw [List.append_nil]
    cases result <;> exact hadded
  refine (silent_ask Answer.sent).bind hown fun _ => ?_
  cases result with
  | ok value => exact Effect.Appends.pure hown
  | error failed => exact appends_fail _ hown

theorem silent_adminResponse (executed : Except AuthFailure AdminResponse) :
    Effect.Silent Desk.log (adminResponse executed) := by
  cases executed with
  | ok response => exact silent_pure _
  | error failure =>
      exact (silent_ask Answer.serverTime).seq fun serverTime => silent_pure _

theorem leaves_handleAdminRequest :
    Leaves (handleAdminRequest serializer sessions socket) (Own sessions socket) := by
  rw [handleAdminRequest]
  apply Leaves.silent (silent_ask Answer.executed)
  intro executed
  apply Leaves.silent (silent_adminResponse executed)
  intro response
  apply Leaves.silent (silent_orFail _ _)
  intro message
  apply Leaves.respond
  intro writer added hholds
  exact hholds.leaves _ message

/-! ### A whole connection -/

/-- While its credential is active the request is served, or it is answered with an
error. -/
theorem leaves_runWhileCredentialActive {work : HandlerM Unit}
    (hwork : Leaves work (Visited sessions socket)) :
    Leaves (runWhileCredentialActive serializer sessions socket work)
      (Visited sessions socket) := by
  rw [runWhileCredentialActive]
  refine (silent_ask Answer.permitted).bind (Own.visited (.none)) fun permitted => ?_
  split
  · exact (leaves_writeProtocolError _).mono (fun _ _ => Own.visited)
      fun _ => Own.visited
  · exact appends_untilCancelled hwork

variable (sessions socket) in
/-- The whole log of a connection's handler. -/
def Served (added : List SessionEntry) : Prop :=
  added = [(socket, .handedOver)] ∨ Visited sessions socket added

theorem Leaves.served {program : HandlerM Unit}
    (hprogram : Leaves program (Own sessions socket)) :
    Leaves program (Served sessions socket) :=
  hprogram.mono (fun _ _ hown => .inr (Own.visited hown))
    fun _ hown => .inr (Own.visited hown)

theorem leaves_handOver : Leaves (handOver socket) (Served sessions socket) := by
  have hnone : Served sessions socket [] := .inr (Own.visited .none)
  rw [handOver]
  refine (silent_ask Answer.sent).bind hnone fun sent => ?_
  split
  · exact (appends_note socket .handedOver).mono (fun _ _ heq => .inl heq)
      fun _ hadded => hadded
  · exact appends_fail _ hnone

theorem leaves_serveRequest (connId : RemoteConnId) (context : AuthContext)
    (nameSpace : UInt64) (init : SessionRequest) :
    Leaves (serveRequest serializer sessions socket connId context nameSpace init)
      (Served sessions socket) := by
  have hreject : ∀ failure, Leaves
      (writeProtocolError serializer sessions socket failure)
      (Served sessions socket) :=
    fun failure => (leaves_writeProtocolError failure).served
  have hrun : ∀ {work : HandlerM Unit}, Leaves work (Visited sessions socket) →
      Leaves (runWhileCredentialActive serializer sessions socket work)
        (Served sessions socket) :=
    fun hwork => (leaves_runWhileCredentialActive hwork).mono
      (fun _ _ => .inr) fun _ => .inr
  have hown : ∀ {work : HandlerM Unit}, Leaves work (Own sessions socket) →
      Leaves work (Visited sessions socket) :=
    fun hwork => hwork.mono (fun _ _ => Own.visited) fun _ => Own.visited
  rw [serveRequest]
  split
  · split
    · exact hreject _
    · exact hrun (hown (leaves_handleServerConn connId))
  · split
    · exact hreject _
    · exact hrun (leaves_handleClientConn connId)
  · split
    · exact hreject _
    · exact leaves_handOver
  · exact hrun (hown leaves_handleShowStatus)
  · split
    · exact hreject _
    · split
      · exact hreject _
      · split
        · have hnone : Served sessions socket [] := .inr (Own.visited .none)
          refine (silent_ask Answer.permitted).bind hnone fun permitted => ?_
          split
          · exact hreject _
          · exact leaves_handleAdminRequest.served
        · exact leaves_handleAdminRequest.served

/-- Every request kind, every failure and every point where the handler is
dropped. -/
theorem leaves_handleConn (connId : RemoteConnId) (initial : InitialRead) :
    Leaves (handleConn serializer sessions socket connId initial)
      (Served sessions socket) := by
  rw [handleConn.eq_def]
  split
  · exact (leaves_fail _).served
  · exact (leaves_writeProtocolError _).served
  · exact (leaves_pure ()).served
  · exact (leaves_writeProtocolError _).served
  · split
    · exact (leaves_pure ()).served
    · dsimp only
      split
      · exact (leaves_writeProtocolError _).served
      · exact leaves_serveRequest connId _ _ _

end Writing

end PbMapper.Session

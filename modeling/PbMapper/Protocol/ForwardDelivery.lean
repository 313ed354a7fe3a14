import PbMapper.Protocol.Forward

/-!
# What forwarding delivers

The laws of a connection whose two ends speak the same framing, and what
`start_forward` between two lawful connections delivers.  A connection may
represent the end of a stream by an error of its reader; `start_forward` then
stops, and the condition under which it stops at the right moment is stated on
the step that reads that end.
-/

namespace PbMapper.Protocol

open PbMapper.Core

/-! ## Lawful connections -/

/-- A connection carries plaintext: `Carries writer reader wire plain` says that
the bytes `wire`, put on it by ends now in state `writer` and not yet read by a
reader in state `reader`, mean `plain`. -/
structure LawfulLink {Reader Writer : Type} [ForwardReader Reader]
    [ForwardWriter Writer] (endpoint : Endpoint Reader Writer) where
  Carries : Writer → Reader → List UInt8 → List UInt8 → Prop
  /-- Whether the reader reports the end of the stream as an error. -/
  endFails : Bool
  carries_init : Carries endpoint.writer endpoint.reader [] []
  write_carries : ∀ {writer reader wire plain message},
    Carries writer reader wire plain → MessageFits message →
      ∃ bytes writer',
        ForwardWriter.write writer message = .ok (bytes, writer') ∧
          Carries writer' reader (wire ++ bytes) (plain ++ message)
  /-- Reading a part of what has arrived waits for more or yields a chunk of
  the plaintext; with everything arrived it does not wait. -/
  read_carries : ∀ {writer reader wire plain} (available : ℕ) (ended : Bool),
    Carries writer reader wire plain → wire ≠ [] →
      (ended = true → wire.length ≤ available) →
      (available < wire.length ∧ ∃ reader',
        ForwardReader.read reader (wire.take available) ended =
            .pending reader' ∧
          Carries writer reader' wire plain) ∨
      ∃ bytes consumed reader' rest,
        ForwardReader.read reader (wire.take available) ended =
            .chunk bytes consumed reader' ∧
          MessageFits bytes ∧ 0 < consumed ∧ consumed ≤ wire.length ∧
          plain = bytes ++ rest ∧
          Carries writer reader' (wire.drop consumed) rest
  read_idle : ∀ {writer reader plain}, Carries writer reader [] plain →
    ∃ reader', ForwardReader.read reader [] false = .pending reader' ∧
      Carries writer reader' [] plain
  read_end : ∀ {writer reader plain}, Carries writer reader [] plain →
    plain = [] ∧
      if endFails then ∃ error, ForwardReader.read reader [] true = .failed error
      else ∃ reader', ForwardReader.read reader [] true = .chunk [] 0 reader' ∧
        Carries writer reader' [] []

namespace LawfulLink

variable {Reader Writer : Type} [ForwardReader Reader] [ForwardWriter Writer]
  {endpoint : Endpoint Reader Writer}

/-- A reader of the whole wire gets the whole plaintext. -/
theorem receive_eq (link : LawfulLink endpoint) {writer : Writer}
    (fuel : ℕ) {reader : Reader} {wire plain : List UInt8}
    (hfuel : wire.length ≤ fuel)
    (hcarries : link.Carries writer reader wire plain) :
    receive fuel reader wire = plain := by
  induction fuel generalizing reader wire plain with
  | zero =>
      obtain rfl : wire = [] := List.length_eq_zero_iff.mp (by omega)
      rw [(link.read_end hcarries).1, receive]
  | succ fuel ih =>
      by_cases hwire : wire = []
      · subst hwire
        obtain ⟨reader', hread, -⟩ := link.read_idle hcarries
        rw [(link.read_end hcarries).1, receive, hread]
      rcases link.read_carries wire.length false hcarries hwire (by simp) with
        ⟨hshort, -⟩ |
        ⟨bytes, consumed, reader', rest, hread, -, hpositive, -, rfl, hrest⟩
      · omega
      · rw [List.take_length] at hread
        rw [receive, hread]
        dsimp only
        rw [ih (by rw [List.length_drop]; omega) hrest]

end LawfulLink

/-! ## One direction -/

section Direction

variable {SourceReader SourceWriter TargetReader TargetWriter : Type}
  [ForwardReader SourceReader] [ForwardWriter SourceWriter]
  [ForwardReader TargetReader] [ForwardWriter TargetWriter]
  {sourceEnd : Endpoint SourceReader SourceWriter}
  {targetEnd : Endpoint TargetReader TargetWriter}

/-- Everything the source has said is written to the target, being written, or
unread; a finished direction has read its source to the end. -/
structure Flows (source : LawfulLink sourceEnd) (target : LawfulLink targetEnd)
    (copy : CopyState SourceReader TargetWriter)
    (sourceSocket : Socket SourceWriter) (targetSocket : Socket TargetWriter) :
    Prop where
  split : ∃ written unread,
    sourceSocket.said = written ++ unread ∧
    source.Carries sourceSocket.peerWriter copy.reader sourceSocket.incoming
      unread ∧
    target.Carries copy.writer targetEnd.reader
      (targetSocket.outgoing ++ copy.unwritten) written
  done : copy.result.isSome →
    sourceSocket.ended = true ∧ sourceSocket.incoming = [] ∧
      copy.writing = none

variable {source : LawfulLink sourceEnd} {target : LawfulLink targetEnd}
  {copy : CopyState SourceReader TargetWriter}
  {sourceSocket : Socket SourceWriter} {targetSocket : Socket TargetWriter}

theorem flows_init :
    Flows source target (.init sourceEnd.reader targetEnd.writer)
      (.init sourceEnd.writer) (.init targetEnd.writer) :=
  ⟨⟨[], [], rfl, source.carries_init, target.carries_init⟩, nofun⟩

/-- What the peer of the target connection sends does not concern the
direction. -/
theorem Flows.congr_target {targetSocket' : Socket TargetWriter}
    (hflows : Flows source target copy sourceSocket targetSocket)
    (houtgoing : targetSocket'.outgoing = targetSocket.outgoing) :
    Flows source target copy sourceSocket targetSocket' :=
  ⟨by rw [houtgoing]; exact hflows.split, hflows.done⟩

theorem Flows.congr_source {sourceSocket' : Socket SourceWriter}
    (hflows : Flows source target copy sourceSocket targetSocket)
    (hpeer : sourceSocket'.peerWriter = sourceSocket.peerWriter)
    (hsaid : sourceSocket'.said = sourceSocket.said)
    (hincoming : sourceSocket'.incoming = sourceSocket.incoming)
    (hended : sourceSocket.ended = true → sourceSocket'.ended = true) :
    Flows source target copy sourceSocket' targetSocket := by
  refine ⟨by rw [hpeer, hsaid, hincoming]; exact hflows.split, fun hdone => ?_⟩
  obtain ⟨hend, hnil, hwriting⟩ := hflows.done hdone
  exact ⟨hended hend, hincoming.trans hnil, hwriting⟩

/-- Dropping both connections. -/
theorem Flows.drop
    (hflows : Flows source target copy sourceSocket targetSocket) :
    Flows source target copy { sourceSocket with shut := true }
      { targetSocket with shut := true } :=
  ⟨hflows.split, hflows.done⟩

theorem Flows.send {message : List UInt8} {sourceSocket' : Socket SourceWriter}
    (hflows : Flows source target copy sourceSocket targetSocket)
    (hsend : sourceSocket.send message = some sourceSocket') :
    Flows source target copy sourceSocket' targetSocket := by
  obtain ⟨written, unread, hsaid, hunread, hwritten⟩ := hflows.split
  unfold Socket.send at hsend
  split at hsend
  case isFalse => cases hsend
  case isTrue hguard =>
    obtain ⟨bytes, writer', hwrite, hcarries⟩ :=
      source.write_carries hunread hguard.2
    rw [hwrite] at hsend
    obtain rfl := Option.some.inj hsend
    refine ⟨⟨written, unread ++ message, ?_, hcarries, hwritten⟩, fun hdone => ?_⟩
    · dsimp only
      rw [hsaid, List.append_assoc]
    · have := (hflows.done hdone).1
      rw [hguard.1] at this
      cases this

theorem Flows.flush {accepted : ℕ}
    (hflows : Flows source target copy sourceSocket targetSocket) :
    Flows source target (copy.flush targetSocket accepted).1 sourceSocket
      (copy.flush targetSocket accepted).2 := by
  obtain ⟨written, unread, hsaid, hunread, hwritten⟩ := hflows.split
  unfold CopyState.flush
  split
  · exact hflows
  rename_i wire chunk hwriting
  have hunwritten : copy.unwritten = wire := by
    simp [CopyState.unwritten, hwriting]
  have hundone : ∀ {motive : Prop}, copy.result.isSome → motive := by
    intro motive hdone
    rw [(hflows.done hdone).2.2] at hwriting
    cases hwriting
  rw [hunwritten] at hwritten
  split
  · rename_i hdrop
    refine ⟨⟨written, unread, hsaid, hunread, ?_⟩, hundone⟩
    have htake : wire.take accepted = wire :=
      List.take_of_length_le (List.drop_eq_nil_iff.mp hdrop)
    simpa [CopyState.unwritten, htake] using hwritten
  · refine ⟨⟨written, unread, hsaid, hunread, ?_⟩, hundone⟩
    simpa [CopyState.unwritten, List.append_assoc] using hwritten

/-- One poll of a direction that is neither finished nor writing: it goes on,
or it has read the end of its source, as an error exactly when the source's
reader reports ends so. -/
theorem Flows.poll
    (hflows : Flows source target copy sourceSocket targetSocket)
    (available : ℕ)
    (hresult : copy.result = none) (hwriting : copy.writing = none) :
    let polled := copy.poll sourceSocket targetSocket available
    Flows source target polled.1 polled.2.1 polled.2.2 ∧
      polled.2.1.peerWriter = sourceSocket.peerWriter ∧
      polled.2.1.said = sourceSocket.said ∧
      polled.2.1.ended = sourceSocket.ended ∧
      polled.2.1.outgoing = sourceSocket.outgoing ∧
      polled.2.1.shut = sourceSocket.shut ∧
      polled.2.2.peerWriter = targetSocket.peerWriter ∧
      polled.2.2.said = targetSocket.said ∧
      polled.2.2.incoming = targetSocket.incoming ∧
      polled.2.2.ended = targetSocket.ended ∧
      (polled.1.result = none ∧ polled.2.2.shut = targetSocket.shut ∨
        (sourceSocket.ended = true ∧ sourceSocket.incoming = []) ∧
          ((polled.1.failed = false ∧ polled.1.isDone = true ∧
              polled.2.2.shut = true) ∨
            polled.1.failed = true ∧ source.endFails = true)) := by
  obtain ⟨written, unread, hsaid, hunread, hwritten⟩ := hflows.split
  have hunwritten : copy.unwritten = [] := by
    simp [CopyState.unwritten, hwriting]
  have hdone : ∀ {motive : Prop}, copy.result.isSome → motive := by
    intro motive hdone
    rw [hresult] at hdone
    cases hdone
  dsimp only
  unfold CopyState.poll
  by_cases hincoming : sourceSocket.incoming = []
  · have hvisible : ForwardReader.read copy.reader
        (sourceSocket.incoming.take available)
        (sourceSocket.ended &&
          decide (sourceSocket.incoming.length ≤ available)) =
        ForwardReader.read copy.reader [] sourceSocket.ended := by
      simp [hincoming]
    rw [hincoming] at hunread
    rw [hvisible]
    cases hended : sourceSocket.ended with
    | false =>
        obtain ⟨reader', hread, hcarries⟩ := source.read_idle hunread
        rw [hread]
        refine ⟨⟨⟨written, unread, hsaid, ?_, hwritten⟩, hdone⟩, ?_⟩
        · dsimp only
          rw [hincoming]
          exact hcarries
        · simp [hended, hresult]
    | true =>
        obtain ⟨rfl, hend⟩ := source.read_end hunread
        cases hfails : source.endFails with
        | true =>
            simp only [hfails, if_true] at hend
            obtain ⟨error, hread⟩ := hend
            rw [hread]
            refine ⟨⟨⟨written, [], hsaid, ?_, hwritten⟩, fun _ =>
              ⟨hended, hincoming, hwriting⟩⟩, ?_⟩
            · dsimp only
              rw [hincoming]
              exact hunread
            · simp [hended, hincoming, CopyState.failed]
        | false =>
            simp only [hfails, Bool.false_eq_true, if_false] at hend
            obtain ⟨reader', hread, hcarries⟩ := hend
            rw [hread]
            refine ⟨⟨⟨written, [], hsaid, ?_, hwritten⟩, fun _ =>
              ⟨rfl, hincoming, hwriting⟩⟩, ?_⟩
            · dsimp only
              rw [hincoming]
              exact hcarries
            · simp [hincoming, CopyState.failed, CopyState.isDone]
  · have hvisible : (sourceSocket.ended &&
        decide (sourceSocket.incoming.length ≤ available)) = true →
        sourceSocket.incoming.length ≤ available := by
      intro hboth
      simpa using (Bool.and_eq_true_iff.mp hboth).2
    rcases source.read_carries available _ hunread hincoming hvisible with
      ⟨-, reader', hread, hcarries⟩ |
      ⟨bytes, consumed, reader', rest, hread, hfits, -, -, rfl, hrest⟩
    · rw [hread]
      refine ⟨⟨⟨written, unread, hsaid, hcarries, hwritten⟩, hdone⟩, ?_⟩
      simp [hresult]
    · rw [hread]
      obtain ⟨wire, writer', hwrite, hcarries⟩ :=
        target.write_carries hwritten hfits
      have hnonempty : ¬bytes.length = 0 := by
        have := hfits.1
        omega
      simp only [hnonempty, if_false, hwrite]
      refine ⟨⟨⟨written ++ bytes, rest, ?_, hrest, ?_⟩, hdone⟩, ?_⟩
      · dsimp only
        rw [hsaid, List.append_assoc]
      · rw [hunwritten, List.append_nil] at hcarries
        exact hcarries
      · simp [hresult]

/-- A direction with nothing left to do has delivered everything. -/
theorem Flows.received
    (hflows : Flows source target copy sourceSocket targetSocket)
    (hwaits : ForwardState.Waits copy sourceSocket)
    (hundone : copy.result = none →
      targetSocket.shut = false)
    (hdone : copy.result.isSome → targetSocket.shut = true) :
    receive targetSocket.outgoing.length targetEnd.reader
        targetSocket.outgoing = sourceSocket.said ∧
      targetSocket.shut = sourceSocket.ended := by
  obtain ⟨written, unread, hsaid, hunread, hwritten⟩ := hflows.split
  have hrest : copy.writing = none ∧ sourceSocket.incoming = [] ∧
      targetSocket.shut = sourceSocket.ended := by
    rcases hwaits with hsome | ⟨hwriting, reader', hpending⟩
    · obtain ⟨hended, hincoming, hwriting⟩ := hflows.done hsome
      exact ⟨hwriting, hincoming, (hdone hsome).trans hended.symm⟩
    · cases hresult : copy.result with
      | some result =>
          obtain ⟨hended, hincoming, -⟩ := hflows.done (by simp [hresult])
          exact ⟨hwriting, hincoming,
            (hdone (by simp [hresult])).trans hended.symm⟩
      | none =>
          have hincoming : sourceSocket.incoming = [] := by
            by_contra hne
            rcases source.read_carries sourceSocket.incoming.length
              sourceSocket.ended hunread hne (fun _ => Nat.le_refl _) with
              ⟨hshort, -⟩ | ⟨bytes, consumed, reader'', rest, hread, -⟩
            · exact Nat.lt_irrefl _ hshort
            · rw [List.take_length, hpending] at hread
              cases hread
          refine ⟨hwriting, hincoming, (hundone hresult).trans ?_⟩
          rw [hincoming] at hunread hpending
          cases hended : sourceSocket.ended with
          | false => rfl
          | true =>
              rw [hended] at hpending
              have hend := (source.read_end hunread).2
              split at hend
              · obtain ⟨error, hread⟩ := hend
                rw [hpending] at hread
                cases hread
              · obtain ⟨reader'', hread, -⟩ := hend
                rw [hpending] at hread
                cases hread
  obtain ⟨hwriting, hincoming, hshut⟩ := hrest
  rw [hincoming] at hunread
  have hunwritten : copy.unwritten = [] := by
    simp [CopyState.unwritten, hwriting]
  rw [hunwritten, List.append_nil] at hwritten
  rw [(source.read_end hunread).1, List.append_nil] at hsaid
  exact ⟨(target.receive_eq _ (Nat.le_refl _) hwritten).trans hsaid.symm, hshut⟩

end Direction

/-! ## Both directions -/

section Both

variable {ClientReader ClientWriter ServerReader ServerWriter : Type}
  [ForwardReader ClientReader] [ForwardWriter ClientWriter]
  [ForwardReader ServerReader] [ForwardWriter ServerWriter]
  {clientEnd : Endpoint ClientReader ClientWriter}
  {serverEnd : Endpoint ServerReader ServerWriter}

/-- A poll that would read the end of a connection whose reader reports ends as
errors finds the other direction finished. -/
def EndsInOrder (client : LawfulLink clientEnd) (server : LawfulLink serverEnd)
    (state :
      ForwardState ClientReader ClientWriter ServerReader ServerWriter) :
    ForwardEvent → Prop
  | .poll .client _ =>
      client.endFails = true → state.client.ended = true →
        state.client.incoming = [] → state.serverToClient.isDone = true
  | .poll .server _ =>
      server.endFails = true → state.server.ended = true →
        state.server.incoming = [] → state.clientToServer.isDone = true
  | _ => True

variable {client : LawfulLink clientEnd} {server : LawfulLink serverEnd}
  {state next :
    ForwardState ClientReader ClientWriter ServerReader ServerWriter}
  {event : ForwardEvent}

structure ForwardInvariant (client : LawfulLink clientEnd)
    (server : LawfulLink serverEnd)
    (state :
      ForwardState ClientReader ClientWriter ServerReader ServerWriter) :
    Prop where
  toServer : Flows client server state.clientToServer state.client state.server
  toClient : Flows server client state.serverToClient state.server state.client
  serverOpen : state.clientToServer.result = none →
    state.returned = false → state.server.shut = false
  clientOpen : state.serverToClient.result = none →
    state.returned = false → state.client.shut = false
  serverShut : state.clientToServer.isDone = true → state.server.shut = true
  clientShut : state.serverToClient.isDone = true → state.client.shut = true
  succeeding : state.returned = false →
    state.clientToServer.failed = false ∧ state.serverToClient.failed = false
  stopsAtEnds : state.StopsAtEnds

/-! ### The two sides are alike -/

def ForwardEvent.swap : ForwardEvent → ForwardEvent
  | .send .client message => .send .server message
  | .send .server message => .send .client message
  | .close .client => .close .server
  | .close .server => .close .client
  | .poll .client available => .poll .server available
  | .poll .server available => .poll .client available
  | .flush .client accepted => .flush .server accepted
  | .flush .server accepted => .flush .client accepted

def ForwardState.swap (state :
    ForwardState ClientReader ClientWriter ServerReader ServerWriter) :
    ForwardState ServerReader ServerWriter ClientReader ClientWriter where
  client := state.server
  server := state.client
  clientToServer := state.serverToClient
  serverToClient := state.clientToServer
  returned := state.returned

omit [ForwardReader ClientReader] [ForwardWriter ClientWriter]
  [ForwardReader ServerReader] [ForwardWriter ServerWriter] in
theorem settle_swap (state :
    ForwardState ClientReader ClientWriter ServerReader ServerWriter) :
    state.swap.settle = state.settle.swap := by
  unfold ForwardState.settle ForwardState.swap
  simp only [Bool.or_comm state.serverToClient.failed,
    Bool.and_comm state.serverToClient.isDone]
  split <;> rfl

theorem step_swap (state :
      ForwardState ClientReader ClientWriter ServerReader ServerWriter)
    (event : ForwardEvent) :
    state.swap.step event.swap = (state.step event).map ForwardState.swap := by
  cases event with
  | send side message =>
      cases side with
      | client =>
          simp only [ForwardEvent.swap, ForwardState.step, ForwardState.swap]
          cases state.client.send message <;> rfl
      | server =>
          simp only [ForwardEvent.swap, ForwardState.step, ForwardState.swap]
          cases state.server.send message <;> rfl
  | close side => cases side <;> rfl
  | poll side available =>
      cases side with
      | client =>
          by_cases hguard : state.returned = false ∧
              state.clientToServer.result = none ∧
              state.clientToServer.writing = none
          · simp only [ForwardState.step, if_pos hguard]
            exact (if_pos hguard).trans
              (congrArg some (settle_swap (state.pollClient available)))
          · simp only [ForwardState.step, if_neg hguard]
            exact if_neg hguard
      | server =>
          by_cases hguard : state.returned = false ∧
              state.serverToClient.result = none ∧
              state.serverToClient.writing = none
          · simp only [ForwardState.step, if_pos hguard]
            exact (if_pos hguard).trans
              (congrArg some (settle_swap (state.pollServer available)))
          · simp only [ForwardState.step, if_neg hguard]
            exact if_neg hguard
  | flush side accepted =>
      cases side with
      | client =>
          by_cases hguard : state.returned = false ∧
              state.clientToServer.result = none
          · simp only [ForwardState.step, if_pos hguard]
            exact if_pos hguard
          · simp only [ForwardState.step, if_neg hguard]
            exact if_neg hguard
      | server =>
          by_cases hguard : state.returned = false ∧
              state.serverToClient.result = none
          · simp only [ForwardState.step, if_pos hguard]
            exact if_pos hguard
          · simp only [ForwardState.step, if_neg hguard]
            exact if_neg hguard

theorem ForwardInvariant.swap (hinv : ForwardInvariant client server state) :
    ForwardInvariant server client state.swap where
  toServer := hinv.toClient
  toClient := hinv.toServer
  serverOpen := hinv.clientOpen
  clientOpen := hinv.serverOpen
  serverShut := hinv.clientShut
  clientShut := hinv.serverShut
  succeeding := fun hreturned => (hinv.succeeding hreturned).symm
  stopsAtEnds := fun hreturned => (hinv.stopsAtEnds hreturned).symm

/-! ### Steps -/

omit [ForwardReader ClientReader] [ForwardWriter ClientWriter]
  [ForwardReader ServerReader] [ForwardWriter ServerWriter] in
theorem settle_of_running
    (hclient : state.clientToServer.failed = false)
    (hserver : state.serverToClient.failed = false)
    (hdone : state.clientToServer.isDone = false ∨
      state.serverToClient.isDone = false) : state.settle = state := by
  unfold ForwardState.settle
  rcases hdone with hdone | hdone <;> simp [hclient, hserver, hdone]

/-- A poll of the client's direction in order keeps the invariant. -/
theorem forwardInvariant_pollClient {available : ℕ}
    (hinv : ForwardInvariant client server state)
    (horder : EndsInOrder client server state (.poll .client available))
    (hstep : state.step (.poll .client available) = some next) :
    ForwardInvariant client server next := by
  simp only [ForwardState.step, ForwardState.pollClient,
    Option.ite_none_right_eq_some] at hstep
  obtain ⟨⟨hreturned, hresult, hwriting⟩, hnext⟩ := hstep
  obtain ⟨hflows, hpeer, hsaid, hended, houtgoing, hshut, hpeer', hsaid',
    hincoming', hended', houtcome⟩ :=
    hinv.toServer.poll available hresult hwriting
  obtain ⟨-, hfailed⟩ := hinv.succeeding hreturned
  revert hnext hflows hpeer hsaid hended houtgoing hshut hpeer' hsaid'
    hincoming' hended' houtcome
  generalize state.clientToServer.poll state.client state.server available =
    polled
  obtain ⟨copy, clientSocket, serverSocket⟩ := polled
  intro hnext hflows hpeer hsaid hended houtgoing hshut hpeer' hsaid' hincoming'
    hended' houtcome
  dsimp only at *
  have htoClient : Flows server client state.serverToClient serverSocket
      clientSocket :=
    (hinv.toClient.congr_target houtgoing).congr_source hpeer' hsaid'
      hincoming' (fun h => hended'.trans h)
  obtain rfl := Option.some.inj hnext
  rcases houtcome with ⟨hgoing, hopen⟩ | ⟨hend, ⟨hok, hdone, hclosed⟩ |
    ⟨herror, hfails⟩⟩
  · have hcopy : copy.failed = false ∧ copy.isDone = false := by
      simp [CopyState.failed, CopyState.isDone, hgoing]
    rw [settle_of_running (by exact hcopy.1) (by exact hfailed)
      (by exact .inl hcopy.2)]
    exact {
      toServer := hflows
      toClient := htoClient
      serverOpen := fun _ h => hopen.trans (hinv.serverOpen hresult h)
      clientOpen := fun hnone h => hshut.trans (hinv.clientOpen hnone h)
      serverShut := fun h => by simp [hcopy.2] at h
      clientShut := fun h => hshut.trans (hinv.clientShut h)
      succeeding := fun _ => ⟨hcopy.1, hfailed⟩
      stopsAtEnds := fun h => by simp [hreturned] at h }
  · cases hother : state.serverToClient.isDone with
    | false =>
        rw [settle_of_running (by exact hok) (by exact hfailed)
          (by exact .inr hother)]
        exact {
          toServer := hflows
          toClient := htoClient
          serverOpen := fun hnone _ => by
            have hcopy : copy.result = none := hnone
            simp [CopyState.isDone, hcopy] at hdone
          clientOpen := fun hnone h => hshut.trans (hinv.clientOpen hnone h)
          serverShut := fun _ => hclosed
          clientShut := fun h => hshut.trans (hinv.clientShut h)
          succeeding := fun _ => ⟨hok, hfailed⟩
          stopsAtEnds := fun h => by simp [hreturned] at h }
    | true =>
        simp only [ForwardState.settle, hdone, hother, Bool.and_self,
          Bool.or_true, if_true]
        exact {
          toServer := hflows.drop
          toClient := htoClient.drop
          serverOpen := nofun
          clientOpen := nofun
          serverShut := fun _ => rfl
          clientShut := fun _ => rfl
          succeeding := nofun
          stopsAtEnds := fun _ => ⟨hdone, hother⟩ }
  · have hother := horder hfails hend.1 hend.2
    have hdone : copy.isDone = true := by
      unfold CopyState.failed at herror
      unfold CopyState.isDone
      cases hcopy : copy.result <;> simp [hcopy] at herror ⊢
    simp only [ForwardState.settle, herror, Bool.true_or, if_true]
    exact {
      toServer := hflows.drop
      toClient := htoClient.drop
      serverOpen := nofun
      clientOpen := nofun
      serverShut := fun _ => rfl
      clientShut := fun _ => rfl
      succeeding := nofun
      stopsAtEnds := fun _ => ⟨hdone, hother⟩ }

theorem socket_send_fields {Writer : Type} [ForwardWriter Writer]
    {socket socket' : Socket Writer} {message : List UInt8}
    (hsend : socket.send message = some socket') :
    socket'.outgoing = socket.outgoing ∧ socket'.shut = socket.shut := by
  unfold Socket.send at hsend
  split at hsend
  case isFalse => cases hsend
  case isTrue =>
    split at hsend
    · cases hsend
    · obtain rfl := Option.some.inj hsend
      exact ⟨rfl, rfl⟩

theorem flush_fields {Reader Writer : Type} (copy : CopyState Reader Writer)
    (target : Socket Writer) (accepted : ℕ) :
    (copy.flush target accepted).1.result = copy.result ∧
      (copy.flush target accepted).2.peerWriter = target.peerWriter ∧
      (copy.flush target accepted).2.said = target.said ∧
      (copy.flush target accepted).2.incoming = target.incoming ∧
      (copy.flush target accepted).2.ended = target.ended ∧
      (copy.flush target accepted).2.shut = target.shut := by
  unfold CopyState.flush
  split
  · simp
  split <;> simp

theorem forwardInvariant_sendClient {message : List UInt8}
    (hinv : ForwardInvariant client server state)
    (hstep : state.step (.send .client message) = some next) :
    ForwardInvariant client server next := by
  simp only [ForwardState.step, Option.bind_eq_bind, Option.bind_eq_some_iff,
    Option.pure_def, Option.some.injEq] at hstep
  obtain ⟨socket, hsend, rfl⟩ := hstep
  obtain ⟨houtgoing, hshut⟩ := socket_send_fields hsend
  exact { hinv with
    toServer := hinv.toServer.send hsend
    toClient := hinv.toClient.congr_target houtgoing
    clientOpen := fun hnone h => hshut.trans (hinv.clientOpen hnone h)
    clientShut := fun h => hshut.trans (hinv.clientShut h) }

theorem forwardInvariant_closeClient
    (hinv : ForwardInvariant client server state)
    (hstep : state.step (.close .client) = some next) :
    ForwardInvariant client server next := by
  obtain rfl := Option.some.inj hstep
  exact { hinv with
    toServer := hinv.toServer.congr_source rfl rfl rfl fun _ => rfl
    toClient := hinv.toClient.congr_target rfl }

theorem forwardInvariant_flushClient {accepted : ℕ}
    (hinv : ForwardInvariant client server state)
    (hstep : state.step (.flush .client accepted) = some next) :
    ForwardInvariant client server next := by
  simp only [ForwardState.step, Option.ite_none_right_eq_some] at hstep
  obtain ⟨⟨hreturned, hresult⟩, hnext⟩ := hstep
  obtain rfl := Option.some.inj hnext
  obtain ⟨hresult', hpeer, hsaid, hincoming, hended, hshut⟩ :=
    flush_fields state.clientToServer state.server accepted
  have hnone : (state.clientToServer.flush state.server accepted).1.result =
      none := hresult'.trans hresult
  exact { hinv with
    toServer := hinv.toServer.flush
    toClient := hinv.toClient.congr_source hpeer hsaid hincoming
      fun h => hended.trans h
    serverOpen := fun _ h => hshut.trans (hinv.serverOpen hresult h)
    serverShut := fun h => by simp [CopyState.isDone, hnone] at h
    succeeding := fun h =>
      ⟨by simp [CopyState.failed, hnone], (hinv.succeeding h).2⟩
    stopsAtEnds := fun h => by simp [hreturned] at h }

/-- An event of the server's side is the mirrored event of the client's. -/
theorem forwardInvariant_of_swap (mirrored : ForwardEvent)
    (hinv : ForwardInvariant client server state)
    (hstep : state.step mirrored.swap = some next)
    (hclient : ∀ {state' next'}, ForwardInvariant server client state' →
      state' = state.swap → state'.step mirrored = some next' →
      ForwardInvariant server client next') :
    ForwardInvariant client server next := by
  have hswapped := step_swap state.swap mirrored
  rw [show state.swap.swap = state from rfl, hstep] at hswapped
  obtain ⟨next', hnext', hswap⟩ := Option.map_eq_some_iff.mp hswapped.symm
  rw [← hswap]
  exact (hclient hinv.swap rfl hnext').swap

theorem forwardInvariant_step (hinv : ForwardInvariant client server state)
    (horder : EndsInOrder client server state event)
    (hstep : state.step event = some next) :
    ForwardInvariant client server next := by
  cases event with
  | send side message =>
      cases side with
      | client => exact forwardInvariant_sendClient hinv hstep
      | server =>
          exact forwardInvariant_of_swap (.send .client message) hinv hstep
            fun hinv' _ hstep' => forwardInvariant_sendClient hinv' hstep'
  | close side =>
      cases side with
      | client => exact forwardInvariant_closeClient hinv hstep
      | server =>
          exact forwardInvariant_of_swap (.close .client) hinv hstep
            fun hinv' _ hstep' => forwardInvariant_closeClient hinv' hstep'
  | poll side available =>
      cases side with
      | client => exact forwardInvariant_pollClient hinv horder hstep
      | server =>
          refine forwardInvariant_of_swap (.poll .client available) hinv hstep
            fun hinv' heq hstep' => forwardInvariant_pollClient hinv' ?_ hstep'
          subst heq
          exact horder
  | flush side accepted =>
      cases side with
      | client => exact forwardInvariant_flushClient hinv hstep
      | server =>
          exact forwardInvariant_of_swap (.flush .client accepted) hinv hstep
            fun hinv' _ hstep' => forwardInvariant_flushClient hinv' hstep'

theorem forwardInvariant_init :
    ForwardInvariant client server (.init clientEnd serverEnd) where
  toServer := flows_init
  toClient := flows_init
  serverOpen := fun _ _ => rfl
  clientOpen := fun _ _ => rfl
  serverShut := nofun
  clientShut := nofun
  succeeding := fun _ => ⟨rfl, rfl⟩
  stopsAtEnds := nofun

/-- Waiting or returned, a forwarder in order has delivered what it is for. -/
theorem ForwardInvariant.delivers
    (hinv : ForwardInvariant client server state)
    (hquiescent : state.Quiescent) :
    state.deliveries clientEnd serverEnd = state.intended := by
  have hwaits : ForwardState.Waits state.clientToServer state.client ∧
      ForwardState.Waits state.serverToClient state.server := by
    rcases hquiescent with hreturned | hwaits
    · exact (hinv.stopsAtEnds hreturned).imp .inl .inl
    · exact hwaits
  have hopen : state.returned = true →
      state.clientToServer.result ≠ none ∧
        state.serverToClient.result ≠ none := by
    intro hreturned
    obtain ⟨hclient, hserver⟩ := hinv.stopsAtEnds hreturned
    exact ⟨Option.isSome_iff_ne_none.mp hclient,
      Option.isSome_iff_ne_none.mp hserver⟩
  have hrunning : ∀ {motive : Prop},
      (state.returned = true → motive) → (state.returned = false → motive) →
        motive := by
    intro motive htrue hfalse
    cases hreturned : state.returned with
    | true => exact htrue hreturned
    | false => exact hfalse hreturned
  obtain ⟨htoServer, hserverEnd⟩ := hinv.toServer.received hwaits.1
    (fun hnone => hrunning (fun h => absurd hnone (hopen h).1)
      (hinv.serverOpen hnone)) hinv.serverShut
  obtain ⟨htoClient, hclientEnd⟩ := hinv.toClient.received hwaits.2
    (fun hnone => hrunning (fun h => absurd hnone (hopen h).2)
      (hinv.clientOpen hnone)) hinv.clientShut
  simp only [ForwardState.deliveries, ForwardState.intended, htoServer,
    hserverEnd, htoClient, hclientEnd]

theorem forwardInvariant_of_reachable
    (hreachable : ((forwardSystem clientEnd serverEnd).restrict
      (EndsInOrder client server)).Reachable state) :
    ForwardInvariant client server state := by
  refine hreachable.invariant ?_ ?_
  · rintro _ rfl
    exact forwardInvariant_init
  · exact fun _ _ _ hinv hstep => forwardInvariant_step hinv hstep.1 hstep.2

/-! ### Exactly the runs in order -/

/-- A poll out of order fails its direction while the other is unfinished. -/
theorem not_stopsAtEnds_of_pollClient {available : ℕ}
    (hinv : ForwardInvariant client server state)
    (horder : ¬EndsInOrder client server state (.poll .client available))
    (hstep : state.step (.poll .client available) = some next) :
    ¬next.StopsAtEnds := by
  simp only [EndsInOrder, Classical.not_imp, Bool.not_eq_true] at horder
  obtain ⟨hfails, hended, hincoming, hother⟩ := horder
  simp only [ForwardState.step, Option.ite_none_right_eq_some] at hstep
  obtain ⟨⟨hreturned, hresult, hwriting⟩, hnext⟩ := hstep
  obtain ⟨written, unread, -, hunread, -⟩ := hinv.toServer.split
  rw [hincoming] at hunread
  have hend := (client.read_end hunread).2
  rw [hfails, if_pos rfl] at hend
  obtain ⟨error, hread⟩ := hend
  have hpoll : state.clientToServer.poll state.client state.server available =
      ({ state.clientToServer with result := some (.error error) },
        state.client, state.server) := by
    simp [CopyState.poll, hincoming, hended, hread]
  obtain rfl := Option.some.inj hnext
  simp [ForwardState.pollClient, hpoll, ForwardState.settle,
    ForwardState.StopsAtEnds, CopyState.failed, hother]

theorem not_stopsAtEnds_of_not_endsInOrder
    (hinv : ForwardInvariant client server state)
    (horder : ¬EndsInOrder client server state event)
    (hstep : state.step event = some next) : ¬next.StopsAtEnds := by
  cases event with
  | send side message => exact absurd trivial horder
  | close side => exact absurd trivial horder
  | flush side accepted => exact absurd trivial horder
  | poll side available =>
      cases side with
      | client => exact not_stopsAtEnds_of_pollClient hinv horder hstep
      | server =>
          have hswapped := step_swap state (.poll .server available)
          rw [hstep] at hswapped
          have hmirror := not_stopsAtEnds_of_pollClient hinv.swap horder hswapped
          exact fun hstops => hmirror fun hreturned => (hstops hreturned).symm

/-- A forwarder that has returned does nothing more. -/
theorem step_of_returned (hreturned : state.returned = true)
    (hstep : state.step event = some next) :
    next.returned = true ∧ next.clientToServer = state.clientToServer ∧
      next.serverToClient = state.serverToClient := by
  cases event with
  | send side message =>
      cases side <;>
        simp only [ForwardState.step, Option.bind_eq_bind,
          Option.bind_eq_some_iff, Option.pure_def, Option.some.injEq] at hstep <;>
        obtain ⟨socket, -, rfl⟩ := hstep <;> exact ⟨hreturned, rfl, rfl⟩
  | close side =>
      cases side <;> obtain rfl := Option.some.inj hstep <;>
        exact ⟨hreturned, rfl, rfl⟩
  | poll side available =>
      cases side <;> simp [ForwardState.step, hreturned] at hstep
  | flush side accepted =>
      cases side <;> simp [ForwardState.step, hreturned] at hstep

/-- A run brings both directions to their own ends of stream exactly when every
poll of it is in order. -/
theorem stopsAtEnds_iff_run (client : LawfulLink clientEnd)
    (server : LawfulLink serverEnd) {events : List ForwardEvent}
    (hrun : (forwardSystem clientEnd serverEnd).Run
      (.init clientEnd serverEnd) events state) :
    state.StopsAtEnds ↔
      ((forwardSystem clientEnd serverEnd).restrict
        (EndsInOrder client server)).Run (.init clientEnd serverEnd) events
          state := by
  constructor
  · induction hrun with
    | nil => exact fun _ => .nil _
    | @snoc middle last events event _ hstep ih =>
        intro hstops
        have hmiddle : middle.StopsAtEnds := by
          intro hreturned
          obtain ⟨hreturned', hclient, hserver⟩ :=
            step_of_returned hreturned hstep
          rw [← hclient, ← hserver]
          exact hstops hreturned'
        have hfront := ih hmiddle
        have hinv : ForwardInvariant client server middle :=
          forwardInvariant_of_reachable ⟨_, events, rfl, hfront⟩
        refine .snoc hfront ⟨?_, hstep⟩
        by_contra horder
        exact not_stopsAtEnds_of_not_endsInOrder hinv horder hstep hstops
  · intro hordered
    exact (forwardInvariant_of_reachable ⟨_, events, rfl, hordered⟩).stopsAtEnds

/-- Between two connections whose readers report ends as ends, every run is in
order. -/
theorem restrict_of_not_endFails (client : LawfulLink clientEnd)
    (server : LawfulLink serverEnd) (hclient : client.endFails = false)
    (hserver : server.endFails = false)
    (hreachable : (forwardSystem clientEnd serverEnd).Reachable state) :
    ((forwardSystem clientEnd serverEnd).restrict
      (EndsInOrder client server)).Reachable state := by
  refine hreachable.invariant (motive := fun state =>
    ((forwardSystem clientEnd serverEnd).restrict
      (EndsInOrder client server)).Reachable state) ?_ ?_
  · exact fun _ hinitial => .initial hinitial
  · intro state event next hstate hstep
    refine hstate.step ⟨?_, hstep⟩
    unfold EndsInOrder
    split
    · exact fun h => by simp [hclient] at h
    · exact fun h => by simp [hserver] at h
    · trivial

end Both

end PbMapper.Protocol

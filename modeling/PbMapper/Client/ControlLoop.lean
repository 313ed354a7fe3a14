import PbMapper.Foundation.Transition
import PbMapper.Protocol.V2Messages
import Mathlib.Data.List.Infix

/-!
# The control loop of a registered service

After its registration a service waits for one of three things at a time: the
next control frame, a heartbeat, or the answer of a probe.  Whichever is first
ends the wait, and the read in progress is dropped with the bytes it has taken.
A link is the loop with its connection to the relay, so that a run interleaves
the frames the relay writes, every splitting of their bytes into arrivals, and
every order of the three branches.
-/

namespace PbMapper.Client

open Auth PbMapper.Core MachineWord Protocol

/-! ## The loop -/

structure ControlSettings where
  /-- The protocol version of the registration. -/
  protocolVersion : ℕ
  heartbeatTolerance : ℕ
  suspectGrace : ℕ

def controlProtocolV2 : ℕ := 2

inductive RegistrationProbeResult where
  | present
  | missing
  | failed (reason : String)

inductive Status where
  | readMsg
  | sendPing
deriving DecidableEq

structure ControlLoop where
  reader : V2MessageReader
  /-- The bytes taken by the read of this iteration. -/
  taken : List UInt8
  probeInFlight : Bool
  pingSeq : ℕ
  /-- The messages given to `handle_request`. -/
  handled : List (List UInt8)
  /-- The error of the read that ended the loop. -/
  readError : Option String
  result : Option (Except Status Unit)

namespace ControlLoop

variable (aead : Aes256Gcm) (settings : ControlSettings) (loop : ControlLoop)

/-- A poll of `read_msg`.  An error of `handle_request` goes on with the loop. -/
def read (arrived : List UInt8) (ended : Bool) : ControlLoop × List UInt8 :=
  match loop.reader.poll aead (loop.taken ++ arrived) ended with
  | .pending => ({ loop with taken := loop.taken ++ arrived }, [])
  | .message plain reader rest =>
      ({ loop with
          reader := reader
          taken := []
          handled := loop.handled ++ [plain] },
        rest)
  | .failed error rest =>
      ({ loop with
          taken := []
          readError := some error
          result := some (.error .readMsg) },
        rest)

/-- A heartbeat tick.  `pingSent` is whether the writer task still takes
commands, `lastRxAge` the time since the last frame. -/
def heartbeat (pingSent : Bool) (lastRxAge : ℕ) : ControlLoop :=
  let pingSeq := wrapAdd u64Max loop.pingSeq 1
  if !pingSent then
    { loop with
      taken := []
      pingSeq := pingSeq
      result := some (.error .sendPing) }
  else
    { loop with
      taken := []
      pingSeq := pingSeq
      probeInFlight := loop.probeInFlight ||
        (decide (controlProtocolV2 ≤ settings.protocolVersion) &&
          decide (settings.heartbeatTolerance ≤ lastRxAge)) }

/-- Whether the answer of a probe ends the loop. -/
def lost (lastRxAge : ℕ) : RegistrationProbeResult → Bool
  | .present => false
  | .missing => settings.heartbeatTolerance ≤ lastRxAge
  | .failed _ => settings.heartbeatTolerance + settings.suspectGrace ≤ lastRxAge

def probeAnswered (result : RegistrationProbeResult) (lastRxAge : ℕ) :
    ControlLoop :=
  { loop with
    taken := []
    probeInFlight := false
    result :=
      if lost settings lastRxAge result then some (.error .readMsg) else none }

/-- The writer task has ended. -/
def writerFinished (result : Except Status Unit) : ControlLoop :=
  { loop with taken := [], result := some result }

end ControlLoop

/-! ## The link -/

structure ControlLink where
  relayWriter : V2MessageWriter
  /-- The messages `write_msg` of the relay has written. -/
  written : List (List UInt8)
  closed : Bool
  inTransit : List UInt8
  arrived : List UInt8
  loop : ControlLoop

inductive ControlEvent where
  | relayWrite (message : List UInt8)
  | relayClose
  | arrive (count : ℕ)
  | read
  | heartbeat (pingSent : Bool) (lastRxAge : ℕ)
  | probeAnswered (result : RegistrationProbeResult) (lastRxAge : ℕ)
  | writerFinished (result : Except Status Unit)

namespace ControlLink

/-- After the register response, which is frame 0 of its direction. -/
def registered (material : V2Material) : ControlLink where
  relayWriter := ⟨material, .serverToClient, 1⟩
  written := []
  closed := false
  inTransit := []
  arrived := []
  loop :=
    { reader := ⟨material, .serverToClient, 1⟩
      taken := []
      probeInFlight := false
      pingSeq := 0
      handled := []
      readError := none
      result := none }

def isRunning (link : ControlLink) : Bool := link.loop.result.isNone

/-- Nothing follows the bytes that have arrived. -/
def atEnd (link : ControlLink) : Bool := link.closed && link.inTransit.isEmpty

variable (aead : Aes256Gcm) (settings : ControlSettings)

/-- A relay whose write fails drops the connection. -/
def step (link : ControlLink) : ControlEvent → Option ControlLink
  | .relayWrite message =>
      if link.closed then none
      else
        match link.relayWriter.writeMsg aead message with
        | (bytes, .ok writer) =>
            some { link with
              relayWriter := writer
              written := link.written ++ [message]
              inTransit := link.inTransit ++ bytes }
        | (bytes, .error _) =>
            some { link with
              closed := true
              inTransit := link.inTransit ++ bytes }
  | .relayClose => some { link with closed := true }
  | .arrive count =>
      some { link with
        inTransit := link.inTransit.drop count
        arrived := link.arrived ++ link.inTransit.take count }
  | .read =>
      if link.isRunning then
        let (loop, rest) := link.loop.read aead link.arrived link.atEnd
        some { link with arrived := rest, loop := loop }
      else none
  | .heartbeat pingSent lastRxAge =>
      if link.isRunning then
        some { link with loop := link.loop.heartbeat settings pingSent lastRxAge }
      else none
  | .probeAnswered result lastRxAge =>
      if link.isRunning ∧ link.loop.probeInFlight then
        some { link with
          loop := link.loop.probeAnswered settings result lastRxAge }
      else none
  | .writerFinished result =>
      if link.isRunning then
        some { link with loop := link.loop.writerFinished result }
      else none

/-- The loop hands over what the relay has written, in order; a read fails only
at the end of the connection, behind everything written; and once everything has
arrived and been read, everything has been handed over. -/
structure Lossless (link : ControlLink) : Prop where
  inOrder : link.loop.handled <+: link.written
  noError : link.loop.readError ≠ none →
    link.closed = true ∧ link.loop.handled = link.written
  complete : link.isRunning = true → link.inTransit = [] → link.arrived = [] →
    link.loop.handled = link.written

end ControlLink

/-- The control connection of one registration. -/
def controlSystem (aead : Aes256Gcm) (material : V2Material)
    (settings : ControlSettings) :
    Transition.System ControlLink ControlEvent :=
  .ofPartial (· = .registered material) (ControlLink.step aead settings)

/-- A heartbeat, or the answer of a probe, that the loop goes on after comes
while the read in progress has taken nothing. -/
def BetweenFrames (settings : ControlSettings) (link : ControlLink) :
    ControlEvent → Prop
  | .heartbeat pingSent _ => pingSent = true → link.loop.taken = []
  | .probeAnswered result lastRxAge =>
      ControlLoop.lost settings lastRxAge result = false → link.loop.taken = []
  | _ => True

instance (settings : ControlSettings) (link : ControlLink)
    (event : ControlEvent) : Decidable (BetweenFrames settings link event) :=
  match event with
  | .heartbeat _ _ => inferInstanceAs (Decidable (_ → _))
  | .probeAnswered _ _ => inferInstanceAs (Decidable (_ → _))
  | .relayWrite _ => inferInstanceAs (Decidable True)
  | .relayClose => inferInstanceAs (Decidable True)
  | .arrive _ => inferInstanceAs (Decidable True)
  | .read => inferInstanceAs (Decidable True)
  | .writerFinished _ => inferInstanceAs (Decidable True)

/-! ## The frames in flight -/

section Invariant

variable {aead : Aes256Gcm} {material : V2Material} {settings : ControlSettings}

/-- A message `write_msg` accepts. -/
def FrameFits (message : List UInt8) : Prop :=
  message.length + codecTagLen ≤ maxMsgLen

/-- The relay's frames of consecutive messages. -/
def v2Frames (aead : Aes256Gcm) (material : V2Material) :
    ℕ → List (List UInt8) → List UInt8
  | _, [] => []
  | counter, message :: messages =>
      v2Frame aead material .serverToClient counter message ++
        v2Frames aead material (counter + 1) messages

theorem v2Frames_append (counter : ℕ) (messages : List (List UInt8))
    (message : List UInt8) :
    v2Frames aead material counter (messages ++ [message]) =
      v2Frames aead material counter messages ++
        v2Frame aead material .serverToClient (counter + messages.length)
          message := by
  induction messages generalizing counter with
  | nil => simp [v2Frames]
  | cons head messages ih =>
      rw [List.cons_append, v2Frames, v2Frames, ih, List.append_assoc,
        List.length_cons, Nat.add_assoc counter 1, Nat.add_comm 1]

namespace ControlLink

/-- Bytes between the relay's writer and the last frame handed over. -/
def wire (link : ControlLink) : List UInt8 :=
  link.loop.taken ++ link.arrived ++ link.inTransit

/-- While the loop runs, the wire holds the frames of the messages still to be
handed over, and at most one more, whose counter was the last. -/
structure Streaming (aead : Aes256Gcm) (material : V2Material)
    (link : ControlLink) (waiting : List (List UInt8)) (extra : List UInt8) :
    Prop where
  written : link.written = link.loop.handled ++ waiting
  wire : link.wire = v2Frames aead material link.loop.reader.expectedCounter
    waiting ++ extra
  reader : link.loop.reader =
    ⟨material, .serverToClient, link.loop.reader.expectedCounter⟩
  writer : link.relayWriter = ⟨material, .serverToClient,
    link.loop.reader.expectedCounter + waiting.length⟩
  counter : link.relayWriter.counter ≤ u64Max
  fits : ∀ message ∈ waiting, FrameFits message
  extra : extra = [] ∨ link.closed = true ∧
    link.relayWriter.counter = u64Max ∧ ∃ message, FrameFits message ∧
      extra = v2Frame aead material .serverToClient u64Max message
  short : ∀ message ∈ waiting.head?, link.loop.taken.length <
    (v2Frame aead material .serverToClient link.loop.reader.expectedCounter
      message).length
  noError : link.loop.readError = none

structure Stopped (link : ControlLink) : Prop where
  inOrder : link.loop.handled <+: link.written
  noError : link.loop.readError ≠ none →
    link.closed = true ∧ link.loop.handled = link.written

def Coherent (aead : Aes256Gcm) (material : V2Material) (link : ControlLink) :
    Prop :=
  (link.isRunning = true ∧ ∃ waiting extra,
      link.Streaming aead material waiting extra) ∨
    (link.isRunning = false ∧ link.Stopped)

variable {link next : ControlLink} {waiting : List (List UInt8)}
  {extra : List UInt8}

theorem Streaming.inOrder (hlink : link.Streaming aead material waiting extra) :
    link.loop.handled <+: link.written :=
  hlink.written ▸ List.prefix_append _ _

/-- A branch that ends the loop, or drops a read that has taken nothing. -/
theorem Streaming.dropped (hlink : link.Streaming aead material waiting extra)
    {loop : ControlLoop} (hreader : loop.reader = link.loop.reader)
    (hhandled : loop.handled = link.loop.handled)
    (herror : loop.readError = none) (htaken : loop.taken = [])
    (hkept : loop.result = none → link.loop.taken = []) :
    Coherent aead material { link with loop := loop } := by
  cases hresult : loop.result with
  | none =>
      refine .inl ⟨by simp [isRunning, hresult], waiting, extra, ?_⟩
      have hwire : ControlLink.wire { link with loop := loop } = link.wire := by
        simp only [ControlLink.wire, htaken, hkept hresult]
      refine ⟨?_, ?_, ?_, ?_, hlink.counter, hlink.fits, hlink.extra, ?_, herror⟩
      · simp only [hhandled, hlink.written]
      · simp only [hwire, hreader, hlink.wire]
      · simp only [hreader]
        exact hlink.reader
      · simp only [hreader]
        exact hlink.writer
      · intro message _
        simp only [htaken, length_v2Frame, List.length_nil]
        omega
  | some result =>
      refine .inr ⟨by simp [isRunning, hresult], ⟨?_, fun hne => ?_⟩⟩
      · simp only [hhandled]
        exact hlink.inOrder
      · exact absurd herror hne

theorem length_of_atEnd (hend : link.atEnd = true) :
    (link.loop.taken ++ link.arrived).length = link.wire.length := by
  rw [atEnd, Bool.and_eq_true, List.isEmpty_iff] at hend
  rw [wire, hend.2, List.append_nil]

/-- A poll that sees part of a frame. -/
theorem read_pending {arrived : List UInt8} {ended : Bool} {loop : ControlLoop}
    (hpoll : loop.reader.poll aead (loop.taken ++ arrived) ended = .pending) :
    loop.read aead arrived ended =
      ({ loop with taken := loop.taken ++ arrived }, []) := by
  rw [ControlLoop.read, hpoll]

theorem read_message {arrived plain rest : List UInt8} {ended : Bool}
    {loop : ControlLoop} {reader : V2MessageReader}
    (hpoll : loop.reader.poll aead (loop.taken ++ arrived) ended =
      .message plain reader rest) :
    loop.read aead arrived ended =
      ({ loop with
          reader := reader
          taken := []
          handled := loop.handled ++ [plain] },
        rest) := by
  rw [ControlLoop.read, hpoll]

theorem read_failed {arrived rest : List UInt8} {ended : Bool} {error : String}
    {loop : ControlLoop}
    (hpoll : loop.reader.poll aead (loop.taken ++ arrived) ended =
      .failed error rest) :
    loop.read aead arrived ended =
      ({ loop with
          taken := []
          readError := some error
          result := some (.error .readMsg) },
        rest) := by
  rw [ControlLoop.read, hpoll]

/-- A poll that waits keeps the bytes it has taken. -/
theorem Streaming.waits (hlink : link.Streaming aead material waiting extra)
    (hrunning : link.isRunning = true)
    (hpoll : link.loop.reader.poll aead (link.loop.taken ++ link.arrived)
      link.atEnd = .pending)
    (hshort : ∀ message ∈ waiting.head?,
      (link.loop.taken ++ link.arrived).length <
        (v2Frame aead material .serverToClient link.loop.reader.expectedCounter
          message).length) :
    Coherent aead material
      { link with
        arrived := (link.loop.read aead link.arrived link.atEnd).2
        loop := (link.loop.read aead link.arrived link.atEnd).1 } := by
  rw [read_pending hpoll]
  refine .inl ⟨hrunning, waiting, extra, hlink.written, ?_, hlink.reader,
    hlink.writer, hlink.counter, hlink.fits, hlink.extra, hshort, hlink.noError⟩
  rw [← hlink.wire, ControlLink.wire, ControlLink.wire, List.append_nil]

/-- The next frame is read as far as it has arrived. -/
theorem Streaming.read_next {message : List UInt8}
    (hlink : link.Streaming aead material (message :: waiting) extra)
    (hrunning : link.isRunning = true) :
    Coherent aead material
      { link with
        arrived := (link.loop.read aead link.arrived link.atEnd).2
        loop := (link.loop.read aead link.arrived link.atEnd).1 } := by
  obtain ⟨counter, hreader⟩ : ∃ counter, link.loop.reader =
    ⟨material, .serverToClient, counter⟩ := ⟨_, hlink.reader⟩
  have hfits := hlink.fits message List.mem_cons_self
  have hwriter := hlink.writer
  have hcounter := hlink.counter
  have hwire := hlink.wire
  rw [hreader] at hwriter hwire
  simp only [v2Frames, List.append_assoc] at hwire
  rw [hwriter, List.length_cons] at hcounter
  simp only at hcounter
  obtain ⟨available, havailable⟩ : ∃ available,
      (link.loop.taken ++ link.arrived).length = available := ⟨_, rfl⟩
  have hbytes : link.loop.taken ++ link.arrived =
      (v2Frame aead material .serverToClient counter message ++
        (v2Frames aead material (counter + 1) waiting ++ extra)).take
          available := by
    rw [← hwire, ← havailable]
    exact (List.take_left' rfl).symm
  by_cases hlong : (v2Frame aead material .serverToClient counter
      message).length ≤ available
  · have hpoll := V2MessageReader.poll_frame
      (v2Frames aead material (counter + 1) waiting ++ extra) link.atEnd
      (by omega) hfits hlong
    rw [if_neg (by omega), ← hbytes, ← hreader] at hpoll
    have hrest : (v2Frames aead material (counter + 1) waiting ++ extra).take
        (available - (v2Frame aead material .serverToClient counter
          message).length) ++ link.inTransit =
        v2Frames aead material (counter + 1) waiting ++ extra := by
      have hall : (v2Frame aead material .serverToClient counter message ++
          (v2Frames aead material (counter + 1) waiting ++ extra)).take
            available =
          v2Frame aead material .serverToClient counter message ++
            (v2Frames aead material (counter + 1) waiting ++ extra).take
              (available - (v2Frame aead material .serverToClient counter
                message).length) := by
        rw [List.take_append, List.take_of_length_le hlong]
      rw [ControlLink.wire, hbytes, hall, List.append_assoc] at hwire
      exact List.append_cancel_left hwire
    have hnext : counter + (waiting.length + 1) = counter + 1 + waiting.length := by
      omega
    rw [read_message hpoll]
    refine .inl ⟨hrunning, waiting, extra, ?_, ?_, rfl, ?_, hlink.counter, ?_,
      hlink.extra, ?_, hlink.noError⟩
    · rw [hlink.written, List.append_assoc, List.singleton_append]
    · exact hrest
    · rw [hwriter, List.length_cons]
      exact congrArg (V2MessageWriter.mk material .serverToClient) hnext
    · exact fun other hother => hlink.fits other (List.mem_cons_of_mem _ hother)
    · intro other _
      rw [List.length_nil, length_v2Frame]
      omega
  · have hend : link.atEnd = false := by
      by_contra hend
      have hlength := length_of_atEnd (Bool.eq_true_of_not_eq_false hend)
      rw [havailable, hwire, List.length_append] at hlength
      omega
    refine hlink.waits hrunning ?_ ?_
    · rw [hend, hreader, hbytes]
      exact V2MessageReader.poll_short _ (by omega) hfits (not_le.mp hlong)
    · intro other hother
      obtain rfl : message = other := Option.some.inj hother
      rw [havailable, hreader]
      exact not_le.mp hlong

/-- Behind the last message the read fails only at the end of the connection. -/
theorem Streaming.read_last (hlink : link.Streaming aead material [] extra)
    (hrunning : link.isRunning = true) :
    Coherent aead material
      { link with
        arrived := (link.loop.read aead link.arrived link.atEnd).2
        loop := (link.loop.read aead link.arrived link.atEnd).1 } := by
  have hhandled : link.loop.handled = link.written := by
    rw [hlink.written, List.append_nil]
  have hfailed : ∀ {error : String} {rest : List UInt8}, link.closed = true →
      link.loop.reader.poll aead (link.loop.taken ++ link.arrived) link.atEnd =
        .failed error rest →
      Coherent aead material
        { link with
          arrived := (link.loop.read aead link.arrived link.atEnd).2
          loop := (link.loop.read aead link.arrived link.atEnd).1 } := by
    intro error rest hclosed hpoll
    rw [read_failed hpoll]
    exact .inr ⟨rfl, hlink.inOrder, fun _ => ⟨hclosed, hhandled⟩⟩
  have hnone : ∀ message ∈ ([] : List (List UInt8)).head?,
      (link.loop.taken ++ link.arrived).length <
        (v2Frame aead material .serverToClient link.loop.reader.expectedCounter
          message).length := fun _ hmem => absurd hmem (Option.not_mem_none _)
  have hwire := hlink.wire
  rw [v2Frames, List.nil_append] at hwire
  rcases hlink.extra with rfl | ⟨hclosed, hlast, message, hfits, rfl⟩
  · have hempty : link.loop.taken ++ link.arrived = [] :=
      (List.append_eq_nil_iff.mp hwire).1
    cases hend : link.atEnd with
    | true =>
        have hclosed : link.closed = true := by
          rw [atEnd, Bool.and_eq_true] at hend
          exact hend.1
        rw [← hend]
        apply hfailed hclosed
        rw [hempty, hend]
        rfl
    | false =>
        rw [← hend]
        apply hlink.waits hrunning _ hnone
        rw [hempty, hend]
        rfl
  · have hreader : link.loop.reader = ⟨material, .serverToClient, u64Max⟩ := by
      have hwriter := hlink.writer
      rw [List.length_nil, Nat.add_zero] at hwriter
      rw [hlink.reader, ← hlast, hwriter]
    obtain ⟨available, havailable⟩ : ∃ available,
        (link.loop.taken ++ link.arrived).length = available := ⟨_, rfl⟩
    have hbytes : link.loop.taken ++ link.arrived =
        (v2Frame aead material .serverToClient u64Max message ++ []).take
          available := by
      rw [List.append_nil, ← hwire, ← havailable]
      exact (List.take_left' rfl).symm
    by_cases hlong : (v2Frame aead material .serverToClient u64Max
        message).length ≤ available
    · apply hfailed hclosed
      rw [hreader, hbytes, V2MessageReader.poll_frame _ _ le_rfl hfits hlong,
        if_pos rfl]
    · have hend : link.atEnd = false := by
        by_contra hend
        have hlength := length_of_atEnd (Bool.eq_true_of_not_eq_false hend)
        rw [hwire, havailable] at hlength
        exact hlong hlength.ge
      apply hlink.waits hrunning _ hnone
      rw [hend, hreader, hbytes]
      exact V2MessageReader.poll_short _ le_rfl hfits (not_le.mp hlong)

theorem Streaming.read (hlink : link.Streaming aead material waiting extra)
    (hrunning : link.isRunning = true) :
    Coherent aead material
      { link with
        arrived := (link.loop.read aead link.arrived link.atEnd).2
        loop := (link.loop.read aead link.arrived link.atEnd).1 } := by
  cases waiting with
  | nil => exact hlink.read_last hrunning
  | cons message waiting => exact hlink.read_next hrunning

/-! ## Steps and runs -/

theorem Streaming.relayWrite (hlink : link.Streaming aead material waiting extra)
    (hrunning : link.isRunning = true) {message : List UInt8}
    (hopen : link.closed = false) (hfits : FrameFits message) :
    Coherent aead material
      (if link.relayWriter.counter = u64Max then
        { link with
          closed := true
          inTransit := link.inTransit ++ v2Frame aead material .serverToClient
            link.relayWriter.counter message }
      else
        { link with
          relayWriter :=
            ⟨material, .serverToClient, link.relayWriter.counter + 1⟩
          written := link.written ++ [message]
          inTransit := link.inTransit ++ v2Frame aead material .serverToClient
            link.relayWriter.counter message }) := by
  have hextra : extra = [] := by
    rcases hlink.extra with hnil | ⟨hclosed, _⟩
    · exact hnil
    · rw [hopen] at hclosed
      cases hclosed
  have hwriter : link.relayWriter.counter =
      link.loop.reader.expectedCounter + waiting.length := by
    rw [hlink.writer]
  have hwire : link.loop.taken ++ link.arrived ++ (link.inTransit ++
      v2Frame aead material .serverToClient link.relayWriter.counter message) =
        v2Frames aead material link.loop.reader.expectedCounter
          waiting ++ v2Frame aead material .serverToClient
            link.relayWriter.counter message := by
    rw [← List.append_assoc]
    exact congrArg (· ++ _) (hlink.wire.trans (by rw [hextra, List.append_nil]))
  split
  · rename_i hlast
    refine .inl ⟨hrunning, waiting, v2Frame aead material .serverToClient
        link.relayWriter.counter message, hlink.written, hwire, hlink.reader,
      hlink.writer, hlink.counter, hlink.fits, .inr ⟨rfl, hlast, message, hfits,
        by rw [hlast]⟩, hlink.short, hlink.noError⟩
  · rename_i hmore
    refine .inl ⟨hrunning, waiting ++ [message], [], ?_, ?_, hlink.reader, ?_, ?_,
      ?_, .inl rfl, ?_, hlink.noError⟩
    · simp only [hlink.written, List.append_assoc]
    · simp only [v2Frames_append, List.append_nil, ← hwriter]
      exact hwire
    · simp only [List.length_append, List.length_singleton, ← Nat.add_assoc,
        ← hwriter]
    · have hle := hlink.counter
      exact Nat.lt_of_le_of_ne hle hmore
    · intro other hother
      rcases List.mem_append.mp hother with hold | hnew
      · exact hlink.fits other hold
      · rwa [List.mem_singleton.mp hnew]
    · intro other hother
      cases waiting with
      | cons front waiting => exact hlink.short other hother
      | nil =>
          have hempty := hlink.wire
          rw [v2Frames, hextra, ControlLink.wire] at hempty
          rw [(List.append_eq_nil_iff.mp (List.append_eq_nil_iff.mp hempty).1).1,
            List.length_nil, length_v2Frame]
          omega

theorem Coherent.step (hlink : Coherent aead material link)
    {event : ControlEvent} (hframes : BetweenFrames settings link event)
    (hstep : link.step aead settings event = some next) :
    Coherent aead material next := by
  cases event with
  | relayWrite message =>
      rw [ControlLink.step] at hstep
      by_cases hclosed : link.closed = true
      · rw [if_pos hclosed] at hstep
        cases hstep
      have hopen := Bool.eq_false_of_not_eq_true hclosed
      rw [if_neg hclosed] at hstep
      by_cases hfits : FrameFits message
      · rw [V2MessageWriter.writeMsg_eq hfits] at hstep
        rcases hlink with ⟨hrunning, waiting, extra, hlink⟩ | ⟨hstopped, hlink⟩
        · have hwritten := hlink.relayWrite hrunning hopen hfits
          have hmaterial : link.relayWriter.material = material ∧
              link.relayWriter.direction = .serverToClient := by
            rw [hlink.writer]
            exact ⟨rfl, rfl⟩
          rw [hmaterial.1, hmaterial.2] at hstep
          split at hwritten
          · rename_i hlast
            rw [if_pos hlast] at hstep
            obtain rfl := Option.some.inj hstep
            exact hwritten
          · rename_i hmore
            rw [if_neg hmore] at hstep
            obtain rfl := Option.some.inj hstep
            exact hwritten
        · refine .inr ?_
          split at hstep
          · obtain rfl := Option.some.inj hstep
            exact ⟨hstopped, hlink.inOrder.trans (List.prefix_append _ _),
              fun hne => absurd (hlink.noError hne).1 hclosed⟩
          · obtain rfl := Option.some.inj hstep
            exact ⟨hstopped, hlink.inOrder,
              fun hne => absurd (hlink.noError hne).1 hclosed⟩
      · obtain ⟨error, hwrite⟩ :=
          @V2MessageWriter.writeMsg_too_large aead _ link.relayWriter hfits
        rw [hwrite] at hstep
        obtain rfl := Option.some.inj hstep
        rcases hlink with ⟨hrunning, waiting, extra, hlink⟩ | ⟨hstopped, hlink⟩
        · refine .inl ⟨hrunning, waiting, extra, hlink.written, ?_, hlink.reader,
            hlink.writer, hlink.counter, hlink.fits,
            hlink.extra.imp_right fun h => ⟨rfl, h.2⟩, hlink.short,
            hlink.noError⟩
          rw [← hlink.wire, wire, wire, List.append_nil]
        · exact .inr ⟨hstopped, hlink.inOrder,
            fun hne => absurd (hlink.noError hne).1 hclosed⟩
  | relayClose =>
      obtain rfl := Option.some.inj hstep
      rcases hlink with ⟨hrunning, waiting, extra, hlink⟩ | ⟨hstopped, hlink⟩
      · refine .inl ⟨hrunning, waiting, extra, hlink.written, hlink.wire,
          hlink.reader, hlink.writer, hlink.counter, hlink.fits, ?_, hlink.short,
          hlink.noError⟩
        exact hlink.extra.imp_right fun h => ⟨rfl, h.2⟩
      · exact .inr ⟨hstopped, hlink.inOrder, fun hne => ⟨rfl, (hlink.noError hne).2⟩⟩
  | arrive count =>
      obtain rfl := Option.some.inj hstep
      rcases hlink with ⟨hrunning, waiting, extra, hlink⟩ | ⟨hstopped, hlink⟩
      · refine .inl ⟨hrunning, waiting, extra, hlink.written, ?_, hlink.reader,
          hlink.writer, hlink.counter, hlink.fits, hlink.extra, hlink.short,
          hlink.noError⟩
        rw [← hlink.wire, wire, wire, ← List.append_assoc, List.append_assoc,
          List.take_append_drop]
      · exact .inr ⟨hstopped, hlink.inOrder, hlink.noError⟩
  | read =>
      obtain ⟨hrunning, hnext⟩ := Option.ite_none_right_eq_some.mp hstep
      obtain rfl := Option.some.inj hnext
      rcases hlink with ⟨-, waiting, extra, hlink⟩ | ⟨hstopped, -⟩
      · exact hlink.read hrunning
      · rw [hrunning] at hstopped
        cases hstopped
  | heartbeat pingSent lastRxAge =>
      obtain ⟨hrunning, hnext⟩ := Option.ite_none_right_eq_some.mp hstep
      obtain rfl := Option.some.inj hnext
      rcases hlink with ⟨-, waiting, extra, hlink⟩ | ⟨hstopped, -⟩
      · cases pingSent with
        | true => exact hlink.dropped rfl rfl hlink.noError rfl fun _ => hframes rfl
        | false =>
            exact hlink.dropped rfl rfl hlink.noError rfl fun hnone => by cases hnone
      · rw [hrunning] at hstopped
        cases hstopped
  | probeAnswered result lastRxAge =>
      obtain ⟨⟨hrunning, -⟩, hnext⟩ := Option.ite_none_right_eq_some.mp hstep
      obtain rfl := Option.some.inj hnext
      rcases hlink with ⟨-, waiting, extra, hlink⟩ | ⟨hstopped, -⟩
      · refine hlink.dropped rfl rfl hlink.noError rfl fun hnone => hframes ?_
        by_contra hlost
        rw [ControlLoop.probeAnswered, if_pos (Bool.eq_true_of_not_eq_false hlost)]
          at hnone
        cases hnone
      · rw [hrunning] at hstopped
        cases hstopped
  | writerFinished result =>
      obtain ⟨hrunning, hnext⟩ := Option.ite_none_right_eq_some.mp hstep
      obtain rfl := Option.some.inj hnext
      rcases hlink with ⟨-, waiting, extra, hlink⟩ | ⟨hstopped, -⟩
      · exact hlink.dropped rfl rfl hlink.noError rfl fun hnone => by cases hnone
      · rw [hrunning] at hstopped
        cases hstopped

theorem coherent_registered (material : V2Material) :
    Coherent aead material (registered material) :=
  .inl ⟨rfl, [], [], rfl, rfl, rfl, rfl, (by decide : 1 ≤ u64Max), by simp, .inl rfl,
    by simp, rfl⟩

theorem Coherent.lossless (hlink : Coherent aead material link) :
    link.Lossless := by
  rcases hlink with ⟨hrunning, waiting, extra, hlink⟩ | ⟨hstopped, hlink⟩
  · refine ⟨hlink.inOrder, fun hne => absurd hlink.noError hne, ?_⟩
    intro _ htransit harrived
    cases waiting with
    | nil => rw [hlink.written, List.append_nil]
    | cons message waiting =>
        have hshort := hlink.short message rfl
        have hlength := congrArg List.length hlink.wire
        rw [wire, htransit, harrived, List.append_nil, List.append_nil, v2Frames,
          List.append_assoc, List.length_append] at hlength
        omega
  · refine ⟨hlink.inOrder, hlink.noError, fun hrunning => ?_⟩
    rw [hstopped] at hrunning
    cases hrunning

/-- As long as no heartbeat or probe answer cuts a frame in two, the control
stream is lossless. -/
theorem lossless_of_reachable
    (hreachable : ((controlSystem aead material settings).restrict
      (BetweenFrames settings)).Reachable link) : link.Lossless := by
  suffices hlink : Coherent aead material link from hlink.lossless
  refine hreachable.invariant ?_ ?_
  · rintro start rfl
    exact coherent_registered material
  · intro state event next hstate hstep
    exact hstate.step hstep.1 hstep.2

/-! ## A heartbeat between two segments -/

/-- The counter of the first control frame arrives, a heartbeat ticks, and the
rest of the frame arrives. -/
def splitByHeartbeat : List ControlEvent :=
  [.relayWrite [1, 2], .arrive 8, .read, .heartbeat true 0, .arrive 64, .read]

/-- The same frame read to its end before the heartbeat. -/
def heartbeatAfterFrame : List ControlEvent :=
  [.relayWrite [1, 2], .arrive 8, .read, .arrive 64, .read, .heartbeat true 0]

abbrev sampleMaterial : V2Material :=
  ⟨adminKeyId, 0, .replicate 16 0, .replicate 32 1, .replicate 32 2⟩

abbrev sampleSettings : ControlSettings := ⟨2, 30, 30⟩

theorem splitByHeartbeat_loses :
    ∃ link, (controlSystem .transparent sampleMaterial sampleSettings).Reachable
      link ∧ ¬link.Lossless := by
  have hrun : (splitByHeartbeat.foldlM (step .transparent sampleSettings)
      (registered sampleMaterial)).map
        (fun link => (link.closed, link.loop.readError.isSome)) =
      some (false, true) := by
    decide +kernel
  obtain ⟨link, hfold, hlink⟩ := Option.map_eq_some_iff.mp hrun
  obtain ⟨hopen, herror⟩ := Prod.mk.inj hlink
  refine ⟨link, Transition.System.reachable_of_foldlM
    (fun _ _ _ hstep => hstep) rfl hfold, fun hlossless => ?_⟩
  have hclosed := (hlossless.noError (Option.isSome_iff_ne_none.mp herror)).1
  rw [hopen] at hclosed
  cases hclosed

theorem lossless_heartbeatAfterFrame :
    ∃ link : ControlLink, link.loop.handled = [[1, 2]] ∧ link.Lossless := by
  have hrun : (heartbeatAfterFrame.foldlM (Transition.System.checked
      (BetweenFrames sampleSettings) (step .transparent sampleSettings))
      (registered sampleMaterial)).map (fun link => link.loop.handled) =
      some [[1, 2]] := by
    decide +kernel
  obtain ⟨link, hfold, hhandled⟩ := Option.map_eq_some_iff.mp hrun
  exact ⟨link, hhandled, lossless_of_reachable
    (Transition.System.reachable_of_foldlM Transition.System.checked_sound
      (rfl : registered sampleMaterial = _) hfold)⟩

end ControlLink

end Invariant

end PbMapper.Client

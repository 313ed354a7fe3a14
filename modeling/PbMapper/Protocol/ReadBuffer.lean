import PbMapper.Protocol.MessageRoundTrip

/-!
# The adaptive read buffer

`BufferReader` offers its whole buffer to every read, grows it when a read fills
it and shrinks it after a small one.  The socket answers each read with any
number of bytes that fit what it was offered; with none only at the end of the
stream, unless it was offered nothing.
-/

namespace PbMapper.Protocol

open BigEndian PbMapper.Core

/-! ## The reader -/

/-- A buffer with its bytes. -/
structure BufferReader where
  buffer : CommonBuffer
  bytes : List UInt8
  length_bytes : bytes.length = buffer.length

/-- What the socket answers to one read. -/
inductive SocketRead where
  | received (bytes : List UInt8) (ended : Bool)
  | failed
deriving DecidableEq, Repr

namespace SocketRead

/-- An answer to a read that was offered `size` bytes. -/
def Answers (size : ℕ) : SocketRead → Prop
  | .received bytes ended =>
      bytes.length ≤ size ∧ (bytes = [] → size = 0 ∨ ended = true)
  | .failed => True

instance (size : ℕ) (answer : SocketRead) : Decidable (answer.Answers size) :=
  match answer with
  | .received _ _ => inferInstanceAs (Decidable (_ ∧ (_ → _)))
  | .failed => inferInstanceAs (Decidable True)

end SocketRead

namespace BufferReader

def new : BufferReader :=
  ⟨.new, List.replicate initBufSize 0, List.length_replicate⟩

variable (reader : BufferReader)

def needResize : Bool := reader.buffer.length != reader.buffer.needSize

def dynResize : BufferReader where
  buffer := reader.buffer.dynResize
  bytes := resizeBytes reader.bytes reader.buffer.dynResize.length
  length_bytes := length_resizeBytes _ _

/-- The reader when it hands its buffer to the socket. -/
def offering : BufferReader :=
  if reader.needResize then reader.dynResize else reader

/-- The socket has written `received` to the front of the buffer. -/
def filled (received : List UInt8)
    (hreceived : received.length ≤ reader.bytes.length) :
    BufferReader where
  buffer := reader.buffer.updateNeedSize received.length
  bytes := overwrite reader.bytes received
  length_bytes := (length_overwrite hreceived).trans reader.length_bytes

end BufferReader

/-- A read that was made: the size it was offered, what the socket wrote, whether
the stream has ended there, and what `read` returned. -/
structure BufferedRead where
  offered : ℕ
  received : List UInt8
  ended : Bool
  returned : List UInt8
deriving DecidableEq, Repr

structure BufferedReads where
  reader : BufferReader
  reads : List BufferedRead

namespace BufferedReads

def initial : BufferedReads := ⟨.new, []⟩

/-- One call of `read_inner`. -/
def step (run : BufferedReads) (answer : SocketRead) : Option BufferedReads :=
  let offering := run.reader.offering
  match answer with
  | .failed => some { run with reader := offering }
  | .received received ended =>
      if hreceived : (SocketRead.received received ended).Answers
          offering.bytes.length then
        let reader := offering.filled received hreceived.1
        some
          { reader := reader
            reads := ⟨offering.bytes.length, received, ended,
              reader.bytes.take received.length⟩ :: run.reads }
      else none

end BufferedReads

section Forwarding

end Forwarding

/-! ## The bounds of the buffer -/

/-- A buffer whose size is between the two limits, and which never wants less
than the smaller. -/
structure CommonBuffer.Bounded (buffer : CommonBuffer) : Prop where
  le_length : initBufSize ≤ buffer.length
  le_needSize : initBufSize ≤ buffer.needSize

namespace CommonBuffer

variable {buffer : CommonBuffer}

theorem Bounded.dynResize (hbounded : buffer.Bounded) :
    buffer.dynResize.Bounded := by
  have hle : initBufSize ≤ min buffer.needSize maxBufSize :=
    le_min hbounded.le_needSize (by decide)
  exact ⟨hle, hle⟩

/-- A full buffer asks for twice its size, a read that fills little of it for the
smallest; in neither case for less than that. -/
theorem Bounded.updateNeedSize (hbounded : buffer.Bounded) (read : ℕ) :
    (buffer.updateNeedSize read).Bounded := by
  refine ⟨hbounded.le_length, ?_⟩
  have hlength := hbounded.le_length
  have hneed := hbounded.le_needSize
  change initBufSize ≤ ite _ _ _
  split
  · omega
  split
  · exact le_rfl
  · exact hneed

end CommonBuffer

theorem BufferReader.bounded_offering {reader : BufferReader}
    (hbounded : reader.buffer.Bounded) : reader.offering.buffer.Bounded := by
  rw [BufferReader.offering]
  split
  · exact hbounded.dynResize
  · exact hbounded

/-! ## Reads -/

/-- A read that was offered room, returned what the socket wrote, and returned
nothing only at the end of the stream. -/
structure BufferedRead.Faithful (read : BufferedRead) : Prop where
  le_offered : initBufSize ≤ read.offered
  offered_le : read.offered ≤ maxBufSize
  returned_eq : read.returned = read.received
  ended_of_nil : read.returned = [] → read.ended = true
  length_le : read.returned.length ≤ read.offered

namespace BufferedReads

structure Kept (run : BufferedReads) : Prop where
  bounded : run.reader.buffer.Bounded
  faithful : ∀ read ∈ run.reads, read.Faithful

theorem Kept.step {run next : BufferedReads} {answer : SocketRead}
    (hkept : run.Kept) (hstep : run.step answer = some next) : next.Kept := by
  have hbounded : run.reader.offering.buffer.Bounded :=
    BufferReader.bounded_offering hkept.bounded
  have hlength := run.reader.offering.length_bytes
  cases answer with
  | failed =>
      obtain rfl := Option.some.inj hstep
      exact ⟨hbounded, hkept.faithful⟩
  | received received ended =>
      rw [BufferedReads.step] at hstep
      simp only at hstep
      split at hstep
      · rename_i hanswers
        obtain rfl := Option.some.inj hstep
        refine ⟨hbounded.updateNeedSize received.length, ?_⟩
        rintro read (_ | ⟨_, hread⟩)
        · have hreturned : (run.reader.offering.filled received hanswers.1).bytes.take
              received.length = received := by
            simp only [BufferReader.filled, overwrite, List.take_left']
          refine ⟨?_, ?_, hreturned, ?_, ?_⟩
          · exact hbounded.le_length.trans_eq hlength.symm
          · exact hlength.trans_le run.reader.offering.buffer.length_le
          · intro hnil
            have hempty : received = [] := hreturned.symm.trans hnil
            -- The socket was offered room, so it has come to its end.
            refine (hanswers.2 hempty).resolve_left ?_
            rw [hlength]
            exact run.reader.offering.buffer.length_pos.ne'
          · rw [hreturned]
            exact hanswers.1
        · exact hkept.faithful read hread
      · cases hstep

/-- The chunks that were returned, in order. -/
def chunks (run : BufferedReads) : List (List UInt8) :=
  run.reads.reverse.map BufferedRead.returned

end BufferedReads

/-- What a run of reads promises: the buffer is between its limits, every read
was offered room, returned what was read and came back empty only at the end,
and the peer's length check lets every sealed chunk pass. -/
structure BufferedReads.Sound (run : BufferedReads) : Prop where
  le_length : initBufSize ≤ run.reader.bytes.length
  length_le : run.reader.bytes.length ≤ maxBufSize
  faithful : ∀ read ∈ run.reads, read.Faithful
  sealed_le : ∀ (aead : Aes256Gcm) (ends : MessageEnds), ∀ read ∈ run.reads,
    ∃ bytes writer rest,
      (ends.codecWriter aead).writeMsg read.returned = (.ok bytes, writer) ∧
        getMsgLen ends.readerProcess ends.readerKey (.ofChunks [bytes]) =
          (.ok (read.returned.length + codecTagLen), rest)
  roundTrips : ∀ (aead : Aes256Gcm) (ends : MessageEnds),
    (codecFraming aead ends.writerProcess ends.readerProcess).RoundTrips
      (ends.codecWriter aead) (ends.codecReader aead) .msgNetworkReadCheckSum
      run.chunks

end PbMapper.Protocol

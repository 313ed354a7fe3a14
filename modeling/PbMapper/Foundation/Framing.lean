import PbMapper.Foundation.ByteStream
import Mathlib.Logic.Equiv.Defs

/-!
# Framed channels

Messages on a byte stream: a writer that puts each of them there and a reader
that takes one at a time.  A channel whose two ends stay in step delivers every
list of messages, over any chunking of the bytes, and another channel may be fed
from it without losing a boundary.
-/

/-- The two ends of a channel; each operation leaves its end in a new state. -/
structure Framing (Writer Reader Message Failure : Type*) where
  write : Writer → Message → Except Failure (List UInt8) × Writer
  read : Reader → ByteStream → Except Failure Message × Reader × ByteStream

namespace Framing

variable {Writer Reader Message Failure : Type*}

section Runs

variable (framing : Framing Writer Reader Message Failure)

/-- Consecutive writes: the bytes on the wire, and the writer unless one of them
failed. -/
def writeAll (writer : Writer) :
    List Message → List UInt8 × Except Failure Writer
  | [] => ([], .ok writer)
  | message :: messages =>
      match framing.write writer message with
      | (.error error, _) => ([], .error error)
      | (.ok bytes, writer) =>
          let (later, outcome) := writeAll writer messages
          (bytes ++ later, outcome)

/-- Consecutive reads up to the first error. -/
def readAll : ℕ → Reader → ByteStream → List Message × Option Failure
  | 0, _, _ => ([], none)
  | reads + 1, reader, stream =>
      match framing.read reader stream with
      | (.error error, _, _) => ([], some error)
      | (.ok message, reader, stream) =>
          let (messages, error) := readAll reads reader stream
          (message :: messages, error)

/-- The reader and the stream after so many reads, failed ones included. -/
def afterReads : ℕ → Reader → ByteStream → Reader × ByteStream
  | 0, reader, stream => (reader, stream)
  | reads + 1, reader, stream =>
      let (_, reader, stream) := framing.read reader stream
      afterReads reads reader stream

end Runs

/-- What keeps the two ends of a channel in step: what the writer puts on the
wire is a whole message to the reader, whatever follows it, and at the end of the
stream the reader fails with `ending`. -/
structure Lawful (framing : Framing Writer Reader Message Failure)
    (Fits : Message → Prop) (ending : Failure) (InStep : Writer → Reader → Prop) :
    Prop where
  delivers : ∀ {writer reader message}, InStep writer reader → Fits message →
    ∃ bytes writer', framing.write writer message = (.ok bytes, writer') ∧
      ∀ stream tail, stream.bytes = bytes ++ tail →
        ∃ reader' rest, framing.read reader stream = (.ok message, reader', rest) ∧
          rest.bytes = tail ∧ InStep writer' reader'
  ends : ∀ {writer reader stream}, InStep writer reader → stream.bytes = [] →
    ∃ reader' rest, framing.read reader stream = (.error ending, reader', rest)

/-- Every list of messages is read back with its boundaries, and nothing more. -/
def RoundTrips (framing : Framing Writer Reader Message Failure)
    (writer : Writer) (reader : Reader) (ending : Failure)
    (messages : List Message) : Prop :=
  ∃ bytes writer', framing.writeAll writer messages = (bytes, .ok writer') ∧
    ∀ chunks : List (List UInt8), chunks.flatten = bytes → ∀ reads,
      framing.readAll reads reader (.ofChunks chunks) =
        (messages.take reads,
          if reads ≤ messages.length then none else some ending)

section Laws

variable {framing : Framing Writer Reader Message Failure}
  {Fits : Message → Prop} {ending : Failure} {InStep : Writer → Reader → Prop}

/-- Both ends go through a list of messages in step. -/
theorem Lawful.writeAll_readAll (hlawful : framing.Lawful Fits ending InStep)
    {messages : List Message} (hfits : ∀ message ∈ messages, Fits message)
    {writer : Writer} {reader : Reader} (hstep : InStep writer reader) :
    ∃ bytes writer', framing.writeAll writer messages = (bytes, .ok writer') ∧
      ∀ stream : ByteStream, stream.bytes = bytes → ∀ reads,
        framing.readAll reads reader stream =
          (messages.take reads,
            if reads ≤ messages.length then none else some ending) := by
  induction messages generalizing writer reader with
  | nil =>
      refine ⟨[], writer, rfl, ?_⟩
      intro stream hbytes reads
      cases reads with
      | zero => rfl
      | succ reads =>
          obtain ⟨reader', rest, hread⟩ := hlawful.ends hstep hbytes
          rw [readAll, hread]
          rfl
  | cons message messages ih =>
      obtain ⟨bytes, next, hwrite, hdelivered⟩ :=
        hlawful.delivers hstep (hfits message List.mem_cons_self)
      -- The reader's next state is the same for every stream that begins so.
      obtain ⟨reader₀, -, -, -, hstep₀⟩ :=
        hdelivered ⟨bytes, []⟩ [] (by simp [ByteStream.bytes])
      obtain ⟨later, last, hwrites, -⟩ :=
        ih (fun other hother => hfits other (List.mem_cons_of_mem _ hother)) hstep₀
      refine ⟨bytes ++ later, last, ?_, ?_⟩
      · rw [writeAll, hwrite]
        simp only [hwrites]
      · intro stream hbytes reads
        cases reads with
        | zero => rfl
        | succ reads =>
            obtain ⟨reader', rest, hread, hrest, hstep'⟩ :=
              hdelivered stream later hbytes
            obtain ⟨later', last', hwrites', hreads⟩ :=
              ih (fun other hother =>
                hfits other (List.mem_cons_of_mem _ hother)) hstep'
            have hlater : later' = later := by
              rw [hwrites] at hwrites'
              exact (Prod.mk.inj hwrites').1.symm
            rw [readAll, hread]
            simp only [hreads rest (hrest.trans hlater.symm) reads,
              List.take_succ_cons, List.length_cons, Nat.add_le_add_iff_right]

theorem Lawful.roundTrips (hlawful : framing.Lawful Fits ending InStep)
    {messages : List Message} (hfits : ∀ message ∈ messages, Fits message)
    {writer : Writer} {reader : Reader} (hstep : InStep writer reader) :
    framing.RoundTrips writer reader ending messages := by
  obtain ⟨bytes, writer', hwrites, hreads⟩ :=
    hlawful.writeAll_readAll hfits hstep
  exact ⟨bytes, writer', hwrites, fun chunks hchunks =>
    hreads (.ofChunks chunks) hchunks⟩

/-- A channel whose ends wrap those of a lawful one is lawful. -/
theorem Lawful.wrap {Writer' Reader' : Type*}
    {wrapped : Framing Writer' Reader' Message Failure}
    (hlawful : framing.Lawful Fits ending InStep) (writers : Writer' ≃ Writer)
    (readers : Reader' ≃ Reader)
    (hwrite : ∀ writer message, wrapped.write writer message =
      ((framing.write (writers writer) message).1,
        writers.symm (framing.write (writers writer) message).2))
    (hread : ∀ reader stream, wrapped.read reader stream =
      ((framing.read (readers reader) stream).1,
        readers.symm (framing.read (readers reader) stream).2.1,
        (framing.read (readers reader) stream).2.2)) :
    wrapped.Lawful Fits ending fun writer reader =>
      InStep (writers writer) (readers reader) where
  delivers := by
    intro writer reader message hstep hfits
    obtain ⟨bytes, next, hsent, hdelivered⟩ := hlawful.delivers hstep hfits
    refine ⟨bytes, writers.symm next, by rw [hwrite, hsent], ?_⟩
    intro stream tail hbytes
    obtain ⟨reader', rest, hreceived, hrest, hstep'⟩ :=
      hdelivered stream tail hbytes
    refine ⟨readers.symm reader', rest, by rw [hread, hreceived], hrest, ?_⟩
    rwa [writers.apply_symm_apply, readers.apply_symm_apply]
  ends := by
    intro writer reader stream hstep hbytes
    obtain ⟨reader', rest, hread'⟩ := hlawful.ends hstep hbytes
    exact ⟨readers.symm reader', rest, by rw [hread, hread']⟩

/-- A reader that wraps another goes through the same states. -/
theorem afterReads_wrap {Writer' Reader' : Type*}
    {wrapped : Framing Writer' Reader' Message Failure}
    (readers : Reader' ≃ Reader)
    (hread : ∀ reader stream, wrapped.read reader stream =
      ((framing.read (readers reader) stream).1,
        readers.symm (framing.read (readers reader) stream).2.1,
        (framing.read (readers reader) stream).2.2))
    (reads : ℕ) (reader : Reader') (stream : ByteStream) :
    framing.afterReads reads (readers reader) stream =
      (readers (wrapped.afterReads reads reader stream).1,
        (wrapped.afterReads reads reader stream).2) := by
  induction reads generalizing reader stream with
  | zero => rfl
  | succ reads ih =>
      rw [afterReads, afterReads, hread]
      rw [← ih, readers.apply_symm_apply]

/-- What every read keeps of the reader holds after any number of them. -/
theorem afterReads_invariant {Inv : Reader → Prop}
    (hread : ∀ reader stream, Inv reader →
      Inv (framing.read reader stream).2.1)
    (reads : ℕ) {reader : Reader} (stream : ByteStream) (hinv : Inv reader) :
    Inv (framing.afterReads reads reader stream).1 := by
  induction reads generalizing reader stream with
  | zero => exact hinv
  | succ reads ih => exact ih _ (hread reader stream hinv)

end Laws

/-! ## Feeding one channel from another -/

section Relays

variable {Writer₁ Reader₁ Writer₂ Reader₂ : Type*}

/-- Passes each message that is read on to a writer, up to the first error: the
bytes written, and the error. -/
def relay (source : Framing Writer₁ Reader₁ Message Failure)
    (target : Framing Writer₂ Reader₂ Message Failure) :
    ℕ → Reader₁ → Writer₂ → ByteStream → List UInt8 × Option Failure
  | 0, _, _, _ => ([], none)
  | rounds + 1, reader, writer, stream =>
      match source.read reader stream with
      | (.error error, _, _) => ([], some error)
      | (.ok message, reader, stream) =>
          match target.write writer message with
          | (.error error, _) => ([], some error)
          | (.ok bytes, writer) =>
              let (later, error) := relay source target rounds reader writer stream
              (bytes ++ later, error)

/-- A relay writes what the target's writer makes of the messages it has read. -/
theorem relay_eq {source : Framing Writer₁ Reader₁ Message Failure}
    {target : Framing Writer₂ Reader₂ Message Failure} {rounds : ℕ}
    {reader : Reader₁} {stream : ByteStream} {messages : List Message}
    {error : Option Failure} {bytes : List UInt8} {writer last : Writer₂}
    (hread : source.readAll rounds reader stream = (messages, error))
    (hwrite : target.writeAll writer messages = (bytes, .ok last)) :
    source.relay target rounds reader writer stream = (bytes, error) := by
  induction rounds generalizing reader stream messages bytes writer with
  | zero =>
      rw [readAll, Prod.mk.injEq] at hread
      rw [← hread.1, writeAll, Prod.mk.injEq] at hwrite
      rw [relay, ← hwrite.1, ← hread.2]
  | succ rounds ih =>
      rw [readAll] at hread
      rw [relay]
      rcases hfirst : source.read reader stream with ⟨failed | message, reader', rest⟩
      · rw [hfirst, Prod.mk.injEq] at hread
        rw [← hread.1, writeAll, Prod.mk.injEq] at hwrite
        rw [← hwrite.1, ← hread.2]
      · rw [hfirst, Prod.mk.injEq] at hread
        rw [← hread.1, writeAll] at hwrite
        simp only
        rcases hsent : target.write writer message with ⟨failed | sent, writer'⟩
        · rw [hsent] at hwrite
          simp at hwrite
        · rw [hsent, Prod.mk.injEq] at hwrite
          simp only
          rcases hlater : target.writeAll writer'
              (source.readAll rounds reader' rest).1 with ⟨later, outcome⟩
          rw [hlater] at hwrite
          simp only at hwrite
          rw [hwrite.2] at hlater
          rw [ih (Prod.ext rfl hread.2) hlater, ← hwrite.1]

end Relays

end Framing

import Mathlib.Data.Nat.Basic
import Mathlib.Data.List.Basic

/-!
# Byte streams

A stream that delivers its bytes in chunks and then ends.  A read of a fixed
width waits for as many chunks as it needs, so what it returns depends on the
bytes of the stream alone and not on how they were chunked.
-/

/-- The bytes that have arrived and are unread, and the chunks still to arrive. -/
structure ByteStream where
  arrived : List UInt8
  chunks : List (List UInt8)

namespace ByteStream

def ofChunks (chunks : List (List UInt8)) : ByteStream := ⟨[], chunks⟩

/-- Everything that is left to read. -/
def bytes (stream : ByteStream) : List UInt8 :=
  stream.arrived ++ stream.chunks.flatten

private def fill (width : ℕ) : List UInt8 → List (List UInt8) → ByteStream
  | arrived, [] => ⟨arrived, []⟩
  | arrived, chunk :: chunks =>
      if width ≤ arrived.length then ⟨arrived, chunk :: chunks⟩
      else fill width (arrived ++ chunk) chunks

/-- Reads `width` bytes, or fails at the end of the stream with all of it
consumed. -/
def readExact (width : ℕ) (stream : ByteStream) :
    Option (Vector UInt8 width) × ByteStream :=
  let filled := fill width stream.arrived stream.chunks
  if hwidth : width ≤ filled.arrived.length then
    (some ⟨(filled.arrived.take width).toArray, by simp [hwidth]⟩,
      { filled with arrived := filled.arrived.drop width })
  else (none, ⟨[], []⟩)

private theorem bytes_fill (width : ℕ) (arrived : List UInt8)
    (chunks : List (List UInt8)) :
    (fill width arrived chunks).bytes = arrived ++ chunks.flatten := by
  induction chunks generalizing arrived with
  | nil => rfl
  | cons chunk chunks ih =>
      rw [fill]
      split
      · rfl
      · rw [ih, List.flatten_cons, List.append_assoc]

/-- A stream that was filled in vain has no chunk left. -/
private theorem chunks_fill {width : ℕ} {arrived : List UInt8}
    {chunks : List (List UInt8)}
    (hshort : ¬width ≤ (fill width arrived chunks).arrived.length) :
    (fill width arrived chunks).chunks = [] := by
  induction chunks generalizing arrived with
  | nil => rfl
  | cons chunk chunks ih =>
      rw [fill] at hshort ⊢
      split at hshort
      · contradiction
      · rw [if_neg ‹_›]
        exact ih hshort

/-- A read of a stream that is long enough takes its first bytes. -/
theorem readExact_of_le {width : ℕ} {stream : ByteStream}
    (hwidth : width ≤ stream.bytes.length) :
    ∃ taken rest, stream.readExact width = (some taken, rest) ∧
      taken.toList = stream.bytes.take width ∧
      rest.bytes = stream.bytes.drop width := by
  have hbytes : (fill width stream.arrived stream.chunks).bytes = stream.bytes :=
    bytes_fill width stream.arrived stream.chunks
  have hfilled :
      width ≤ (fill width stream.arrived stream.chunks).arrived.length := by
    by_contra hshort
    apply hshort
    rwa [← hbytes, bytes, chunks_fill hshort, List.flatten_nil,
      List.append_nil] at hwidth
  refine ⟨_, _, dif_pos hfilled, ?_, ?_⟩
  · rw [← hbytes, bytes, List.take_append_of_le_length hfilled]
    rfl
  · rw [← hbytes, bytes, bytes, List.drop_append_of_le_length hfilled]

/-- A read of a stream that is too short leaves nothing of it. -/
theorem readExact_of_lt {width : ℕ} {stream : ByteStream}
    (hwidth : stream.bytes.length < width) :
    ∃ rest, stream.readExact width = (none, rest) ∧ rest.bytes = [] := by
  have hshort :
      ¬width ≤ (fill width stream.arrived stream.chunks).arrived.length := by
    intro hfilled
    have hbytes := congrArg List.length
      (bytes_fill width stream.arrived stream.chunks)
    rw [← bytes, bytes, List.length_append] at hbytes
    omega
  exact ⟨⟨[], []⟩, dif_neg hshort, rfl⟩

/-- What a successful read took stood at the front of the stream. -/
theorem bytes_of_readExact {width : ℕ} {stream rest : ByteStream}
    {taken : Vector UInt8 width}
    (hread : stream.readExact width = (some taken, rest)) :
    stream.bytes = taken.toList ++ rest.bytes := by
  rcases le_or_gt width stream.bytes.length with hwidth | hwidth
  · obtain ⟨taken', rest', hread', htaken, hrest⟩ := readExact_of_le hwidth
    rw [hread] at hread'
    simp only [Prod.mk.injEq, Option.some.injEq] at hread'
    rw [hread'.1, hread'.2, htaken, hrest, List.take_append_drop]
  · obtain ⟨rest', hread', -⟩ := readExact_of_lt hwidth
    rw [hread] at hread'
    cases hread'

/-- A stream that begins with bytes of the width of the read yields them. -/
theorem readExact_append {head tail : List UInt8} {stream : ByteStream}
    {width : ℕ} (hbytes : stream.bytes = head ++ tail)
    (hwidth : head.length = width) :
    ∃ taken rest, stream.readExact width = (some taken, rest) ∧
      taken.toList = head ∧ rest.bytes = tail := by
  have hlength : width ≤ stream.bytes.length := by
    rw [hbytes, List.length_append]
    omega
  obtain ⟨taken, rest, hread, htaken, hrest⟩ := readExact_of_le hlength
  refine ⟨taken, rest, hread, ?_, ?_⟩
  · rw [htaken, hbytes, List.take_left' hwidth]
  · rw [hrest, hbytes, List.drop_left' hwidth]

end ByteStream

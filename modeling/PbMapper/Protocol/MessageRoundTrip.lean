import PbMapper.Protocol.Messages

/-!
# What the message writers write is what the readers read

Lists of messages, the empty one among them, are read back with their boundaries
over any chunking, plain and encrypted, as messages and as datagrams; and no
stream makes a reader outgrow the limit or accept a header under another key.
-/

namespace PbMapper.Protocol

open BigEndian PbMapper.Core

/-! ## Headers -/

section Headers

variable {processKey checksumKey : Option AesKeyType} {key : AesKeyType}

/-- A reader checks under its own key, and without one under the process's. -/
theorem checksumMatches_eq (hkey : checksumKey.or processKey = some key)
    (datalen checksum : ℕ) :
    checksumMatches processKey datalen checksum checksumKey =
      validChecksumForKey datalen checksum key := by
  cases checksumKey with
  | some own =>
      rw [Option.some_or, Option.some.injEq] at hkey
      rw [checksumMatches, hkey]
  | none =>
      rw [Option.none_or] at hkey
      rw [checksumMatches, hkey, validChecksum_some]

theorem checksumFor_eq (hkey : checksumKey.or processKey = some key) (len : ℕ) :
    checksumFor processKey len checksumKey = .ok (getChecksumForKey len key) := by
  cases checksumKey with
  | some own =>
      rw [Option.some_or, Option.some.injEq] at hkey
      rw [checksumFor, hkey]
  | none =>
      rw [Option.none_or] at hkey
      rw [checksumFor, hkey]
      rfl

/-- A header that a reader accepts for a body of this length. -/
structure HeaderAccepted (processKey checksumKey : Option AesKeyType)
    (header : List UInt8) (datalen : ℕ) : Prop where
  length_header : header.length = 8
  datalen_eq : fromBeBytes (header.drop 4) = datalen
  checksum : checksumMatches processKey datalen (fromBeBytes (header.take 4))
    checksumKey = true
  datalen_le : datalen ≤ maxMsgLen

theorem getMsgLen_ok {stream rest : ByteStream} {datalen : ℕ}
    (hread : getMsgLen processKey checksumKey stream = (.ok datalen, rest)) :
    ∃ header, HeaderAccepted processKey checksumKey header datalen ∧
      stream.bytes = header ++ rest.bytes := by
  rw [getMsgLen] at hread
  rcases hfirst : stream.readExact 4 with ⟨_ | first, afterFirst⟩
  · simp [hfirst] at hread
  simp only [hfirst] at hread
  rcases hsecond : afterFirst.readExact 4 with ⟨_ | second, afterSecond⟩
  · simp [hsecond] at hread
  simp only [hsecond] at hread
  split at hread
  · rename_i hmatches
    split at hread
    · rename_i hle
      simp only [Prod.mk.injEq, Except.ok.injEq] at hread
      obtain ⟨rfl, rfl⟩ := hread
      have htake : (first.toList ++ second.toList).take 4 = first.toList :=
        List.take_left' first.length_toList
      have hdrop : (first.toList ++ second.toList).drop 4 = second.toList :=
        List.drop_left' first.length_toList
      refine ⟨first.toList ++ second.toList, ⟨by simp, ?_, ?_, hle⟩, ?_⟩
      · rw [hdrop]
      · rw [htake]
        exact hmatches
      · rw [ByteStream.bytes_of_readExact hfirst,
          ByteStream.bytes_of_readExact hsecond, List.append_assoc]
    · simp at hread
  · simp at hread

/-- The header of a body that is not too long is read back. -/
theorem getMsgLen_append {stream : ByteStream} {tail : List UInt8} {datalen : ℕ}
    (hkey : checksumKey.or processKey = some key) (hdatalen : datalen ≤ maxMsgLen)
    (hbytes : stream.bytes = toBeBytes 4 (getChecksumForKey datalen key) ++
      (toBeBytes 4 datalen ++ tail)) :
    ∃ rest, getMsgLen processKey checksumKey stream = (.ok datalen, rest) ∧
      rest.bytes = tail := by
  have hlt : datalen < 2 ^ 32 := hdatalen.trans_lt (by decide)
  have hchecksumRead :
      fromBeBytes (toBeBytes 4 (getChecksumForKey datalen key)) =
        getChecksumForKey datalen key :=
    fromBeBytes_toBeBytes (getChecksumForKey_lt key hlt)
  have hdatalenRead : fromBeBytes (toBeBytes 4 datalen) = datalen :=
    fromBeBytes_toBeBytes hlt
  obtain ⟨first, afterFirst, hfirst, hfirstBytes, hafterFirst⟩ :=
    ByteStream.readExact_append hbytes (length_toBeBytes 4 _)
  obtain ⟨second, rest, hsecond, hsecondBytes, hrest⟩ :=
    ByteStream.readExact_append hafterFirst (length_toBeBytes 4 datalen)
  refine ⟨rest, ?_, hrest⟩
  rw [getMsgLen, hfirst]
  simp only [hsecond, hfirstBytes, hsecondBytes, hchecksumRead, hdatalenRead,
    checksumMatches_eq hkey, validChecksumForKey_self, if_true, if_pos hdatalen]

theorem getMsgLen_nil {stream : ByteStream} (hbytes : stream.bytes = []) :
    ∃ rest, getMsgLen processKey checksumKey stream =
      (.error .msgNetworkReadCheckSum, rest) := by
  have hshort : stream.bytes.length < 4 := by simp [hbytes]
  obtain ⟨rest, hread, -⟩ := ByteStream.readExact_of_lt hshort
  exact ⟨rest, by rw [getMsgLen, hread]⟩

theorem setMsgLen_eq (hkey : checksumKey.or processKey = some key) (len : ℕ) :
    setMsgLen processKey checksumKey len =
      .ok (toBeBytes 4 (getChecksumForKey len key) ++ toBeBytes 4 len) := by
  rw [setMsgLen, checksumFor_eq hkey]
  rfl

end Headers

/-! ## Plain messages -/

section Normal

variable {processKey : Option AesKeyType} {key : AesKeyType}

namespace NormalMessageReader

/-- A body fills the buffer that was resized to its length. -/
theorem overwrite_resizeBytes {buffer body : List UInt8} {datalen : ℕ}
    (hbody : body.length = datalen) :
    overwrite (resizeBytes buffer datalen) body = body := by
  rw [overwrite, List.drop_of_length_le (by simp [hbody]), List.append_nil]

theorem readMsg_append {reader : NormalMessageReader processKey}
    {stream : ByteStream} {body tail : List UInt8}
    (hkey : reader.checksumKey.or processKey = some key)
    (hbody : body.length ≤ maxMsgLen)
    (hbytes : stream.bytes = toBeBytes 4 (getChecksumForKey body.length key) ++
      (toBeBytes 4 body.length ++ (body ++ tail))) :
    ∃ rest, reader.readMsg stream =
        (.ok body, { reader with buffer := body }, rest) ∧
      rest.bytes = tail := by
  obtain ⟨afterHeader, hheader, hafterHeader⟩ :=
    getMsgLen_append hkey hbody hbytes
  obtain ⟨taken, rest, hread, htaken, hrest⟩ :=
    ByteStream.readExact_append hafterHeader rfl
  refine ⟨rest, ?_, hrest⟩
  rw [readMsg, hheader]
  simp only [hread, htaken, overwrite_resizeBytes rfl, List.take_length]

theorem readMsg_nil (reader : NormalMessageReader processKey)
    {stream : ByteStream} (hbytes : stream.bytes = []) :
    ∃ rest, reader.readMsg stream =
      (.error .msgNetworkReadCheckSum, reader, rest) := by
  have hheader : ∃ rest, getMsgLen processKey reader.checksumKey stream =
      (.error .msgNetworkReadCheckSum, rest) := getMsgLen_nil hbytes
  obtain ⟨rest, hread⟩ := hheader
  exact ⟨rest, by rw [readMsg, hread]⟩

/-- Whatever the stream holds, a message stood behind an accepted header for its
length. -/
theorem readMsg_ok {reader next : NormalMessageReader processKey}
    {stream rest : ByteStream} {message : List UInt8}
    (hread : reader.readMsg stream = (.ok message, next, rest)) :
    ∃ header, HeaderAccepted processKey reader.checksumKey header message.length ∧
      stream.bytes = header ++ (message ++ rest.bytes) ∧
      next = { reader with buffer := message } := by
  rw [readMsg] at hread
  rcases hheader : getMsgLen processKey reader.checksumKey stream with
    ⟨_ | datalen, afterHeader⟩
  · simp [hheader] at hread
  simp only [hheader] at hread
  obtain ⟨header, haccepted, hbytes⟩ := getMsgLen_ok hheader
  rcases hbody : afterHeader.readExact datalen with ⟨_ | body, afterBody⟩
  · simp [hbody] at hread
  have hlength : body.toList.length = datalen := body.length_toList
  simp only [hbody, overwrite_resizeBytes hlength,
    List.take_of_length_le hlength.le, Prod.mk.injEq,
    Except.ok.injEq] at hread
  obtain ⟨rfl, rfl, rfl⟩ := hread
  refine ⟨header, ?_, ?_, rfl⟩
  · rwa [hlength]
  · rw [hbytes, ByteStream.bytes_of_readExact hbody]

/-- The buffer never outgrows the limit. -/
theorem length_readMsg_le (reader : NormalMessageReader processKey)
    (stream : ByteStream) (hbuffer : reader.buffer.length ≤ maxMsgLen) :
    (reader.readMsg stream).2.1.buffer.length ≤ maxMsgLen := by
  rw [readMsg]
  rcases hheader : getMsgLen processKey reader.checksumKey stream with
    ⟨_ | datalen, afterHeader⟩
  · exact hbuffer
  obtain ⟨header, haccepted, -⟩ := getMsgLen_ok hheader
  rcases le_or_gt datalen afterHeader.bytes.length with hlong | hshort
  · obtain ⟨body, rest, hbody, hbodyBytes, -⟩ := ByteStream.readExact_of_le hlong
    have hlength : body.toList.length = datalen := body.length_toList
    simp only [hbody]
    rw [length_overwrite (by simp), length_resizeBytes]
    exact haccepted.datalen_le
  · obtain ⟨rest, hbody, -⟩ := ByteStream.readExact_of_lt hshort
    simp only [hbody]
    rw [length_overwrite (by simpa using hshort.le), length_resizeBytes]
    exact haccepted.datalen_le

end NormalMessageReader

end Normal

/-- Messages of at most eight mebibytes. -/
def WithinLimit (message : List UInt8) : Prop := message.length ≤ maxPlaintextLen

section Channels

variable {aead : Aes256Gcm} {writerProcess readerProcess : Option AesKeyType}

def normalFraming (writerProcess readerProcess : Option AesKeyType) :
    Framing (NormalMessageWriter writerProcess) (NormalMessageReader readerProcess)
      (List UInt8) Error :=
  ⟨NormalMessageWriter.writeMsg, NormalMessageReader.readMsg⟩

def codecFraming (aead : Aes256Gcm)
    (writerProcess readerProcess : Option AesKeyType) :
    Framing (CodecMessageWriter aead writerProcess)
      (CodecMessageReader aead readerProcess) (List UInt8) Error :=
  ⟨CodecMessageWriter.writeMsg, CodecMessageReader.readMsg⟩

def datagramFraming (Writer Reader : Type*) [DatagramWriter Writer]
    [DatagramReader Reader] : Framing Writer Reader (List UInt8) Error :=
  ⟨DatagramWriter.send, DatagramReader.recv⟩

/-- Both ends make their checksums with `key`. -/
def NormalInStep (key : AesKeyType) (writer : NormalMessageWriter writerProcess)
    (reader : NormalMessageReader readerProcess) : Prop :=
  writer.checksumKey.or writerProcess = some key ∧
    reader.checksumKey.or readerProcess = some key

/-- Both ends also hold the session key and have come to the same counter. -/
def CodecInStep (key sessionKey : AesKeyType)
    (writer : CodecMessageWriter aead writerProcess)
    (reader : CodecMessageReader aead readerProcess) : Prop :=
  NormalInStep key (⟨writer.checksumKey⟩ : NormalMessageWriter writerProcess)
      reader.reader ∧
    writer.encryptor.key = sessionKey ∧ reader.decryptor.key = sessionKey ∧
    writer.encryptor.counter = reader.decryptor.counter

theorem normalFraming_lawful (key : AesKeyType) :
    (normalFraming writerProcess readerProcess).Lawful WithinLimit
      .msgNetworkReadCheckSum (NormalInStep key) where
  delivers := by
    intro writer reader message hstep hfits
    have hle : message.length ≤ maxMsgLen :=
      Nat.le_trans hfits (Nat.le_add_right _ _)
    have hlt : message.length < 2 ^ 32 := hle.trans_lt (by decide)
    refine ⟨toBeBytes 4 (getChecksumForKey message.length key) ++
      toBeBytes 4 message.length ++ message, writer, ?_, ?_⟩
    · change writer.writeMsg message = _
      rw [NormalMessageWriter.writeMsg, Nat.mod_eq_of_lt hlt,
        setMsgLen_eq hstep.1]
      rfl
    · intro stream tail hbytes
      simp only [List.append_assoc] at hbytes
      obtain ⟨rest, hread, hrest⟩ :=
        NormalMessageReader.readMsg_append hstep.2 hle hbytes
      exact ⟨_, rest, hread, hrest, hstep⟩
  ends := by
    rintro writer reader stream - hbytes
    obtain ⟨rest, hread⟩ := reader.readMsg_nil hbytes
    exact ⟨_, rest, hread⟩

/-- An encrypted message is the frame of the writer's counter. -/
theorem CodecMessageWriter.writeMsg_eq {key : AesKeyType}
    {writer : CodecMessageWriter aead writerProcess} {message : List UInt8}
    (hkey : writer.checksumKey.or writerProcess = some key)
    (hfits : WithinLimit message) :
    writer.writeMsg message =
      (.ok (frame aead writer.encryptor.key key writer.encryptor.counter message),
        { writer with encryptor :=
          { writer.encryptor with
            counter := advanceCounter writer.encryptor.counter } }) := by
  have hlt : message.length + codecTagLen < 2 ^ 32 :=
    Nat.lt_of_le_of_lt (Nat.add_le_add_right hfits _) (by decide)
  simp only [CodecMessageWriter.writeMsg, Aes256GcmEnCodec.encrypt,
    aead.length_seal, Vector.length_toList, Nat.mod_eq_of_lt hlt,
    setMsgLen_eq hkey, Except.map, frame, sealedBody, List.append_assoc]

/-- A reader in step opens the frame at the front of its stream. -/
theorem CodecMessageReader.readMsg_append {key : AesKeyType}
    {reader : CodecMessageReader aead readerProcess} {message tail : List UInt8}
    {stream : ByteStream}
    (hkey : reader.reader.checksumKey.or readerProcess = some key)
    (hfits : WithinLimit message)
    (hbytes : stream.bytes =
      frame aead reader.decryptor.key key reader.decryptor.counter message ++
        tail) :
    ∃ reader' rest, reader.readMsg stream = (.ok message, reader', rest) ∧
      rest.bytes = tail ∧
      reader'.reader.checksumKey = reader.reader.checksumKey ∧
      reader'.decryptor = ⟨reader.decryptor.key,
        advanceCounter reader.decryptor.counter⟩ := by
  let body := sealedBody aead reader.decryptor.key reader.decryptor.counter message
  have hlength : body.length = message.length + codecTagLen := length_sealedBody
  have hle : body.length ≤ maxMsgLen := by
    rw [hlength]
    exact Nat.add_le_add_right hfits _
  have hframe : stream.bytes = toBeBytes 4 (getChecksumForKey body.length key) ++
      (toBeBytes 4 body.length ++ (body ++ tail)) := by
    rw [hbytes, hlength]
    simp only [frame, List.append_assoc, body]
  obtain ⟨rest, hread, hrest⟩ :=
    NormalMessageReader.readMsg_append hkey hle hframe
  have hopen : reader.decryptor.decrypt aead body =
      (some message, ⟨reader.decryptor.key,
        advanceCounter reader.decryptor.counter⟩) := by
    rw [Aes256GcmDeCodec.decrypt]
    exact congrArg (·, _) (aead.open_seal _ _ _ _)
  refine ⟨⟨{ reader.reader with buffer := overwrite body message },
    ⟨reader.decryptor.key, advanceCounter reader.decryptor.counter⟩⟩, rest, ?_,
    hrest, rfl, rfl⟩
  rw [CodecMessageReader.readMsg, hread]
  simp only [hopen]

theorem codecFraming_lawful (key sessionKey : AesKeyType) :
    (codecFraming aead writerProcess readerProcess).Lawful WithinLimit
      .msgNetworkReadCheckSum (CodecInStep key sessionKey) where
  delivers := by
    rintro writer reader message ⟨⟨hwriter, hreader⟩, hseal, hopen, hcounter⟩ hfits
    refine ⟨_, _, CodecMessageWriter.writeMsg_eq hwriter hfits, ?_⟩
    intro stream tail hbytes
    rw [hseal, ← hopen, hcounter] at hbytes
    obtain ⟨reader', rest, hread, hrest, hkey', hdecryptor⟩ :=
      CodecMessageReader.readMsg_append hreader hfits hbytes
    refine ⟨reader', rest, hread, hrest, ⟨hwriter, ?_⟩, hseal, ?_, ?_⟩
    · rwa [hkey']
    · rwa [hdecryptor]
    · rw [hdecryptor, hcounter]
  ends := by
    rintro writer reader stream - hbytes
    obtain ⟨rest, hread⟩ := reader.reader.readMsg_nil hbytes
    refine ⟨reader, rest, ?_⟩
    change reader.readMsg stream = _
    rw [CodecMessageReader.readMsg, hread]

/-! ## Forwarding -/

/-! ## Datagrams -/

def normalDatagramWriters (processKey : Option AesKeyType) :
    NormalDatagramWriter processKey ≃ NormalMessageWriter processKey :=
  ⟨NormalDatagramWriter.writer, .mk, fun _ => rfl, fun _ => rfl⟩

def normalDatagramReaders (processKey : Option AesKeyType) :
    NormalDatagramReader processKey ≃ NormalMessageReader processKey :=
  ⟨NormalDatagramReader.reader, .mk, fun _ => rfl, fun _ => rfl⟩

def codecDatagramWriters (aead : Aes256Gcm) (processKey : Option AesKeyType) :
    CodecDatagramWriter aead processKey ≃ CodecMessageWriter aead processKey :=
  ⟨CodecDatagramWriter.writer, .mk, fun _ => rfl, fun _ => rfl⟩

def codecDatagramReaders (aead : Aes256Gcm) (processKey : Option AesKeyType) :
    CodecDatagramReader aead processKey ≃ CodecMessageReader aead processKey :=
  ⟨CodecDatagramReader.reader, .mk, fun _ => rfl, fun _ => rfl⟩

theorem normalDatagrams_lawful (key : AesKeyType) :
    (datagramFraming (NormalDatagramWriter writerProcess)
        (NormalDatagramReader readerProcess)).Lawful WithinLimit
      .msgNetworkReadCheckSum fun writer reader =>
        NormalInStep key writer.writer reader.reader :=
  (normalFraming_lawful key).wrap (normalDatagramWriters writerProcess)
    (normalDatagramReaders readerProcess) (fun _ _ => rfl) (fun _ _ => rfl)

theorem codecDatagrams_lawful (key sessionKey : AesKeyType) :
    (datagramFraming (CodecDatagramWriter aead writerProcess)
        (CodecDatagramReader aead readerProcess)).Lawful WithinLimit
      .msgNetworkReadCheckSum fun writer reader =>
        CodecInStep key sessionKey writer.writer reader.reader :=
  (codecFraming_lawful key sessionKey).wrap
    (codecDatagramWriters aead writerProcess)
    (codecDatagramReaders aead readerProcess) (fun _ _ => rfl) (fun _ _ => rfl)

end Channels

/-! ## Transfers -/

section Transfers

variable {Writer₁ Reader₁ Writer₂ Reader₂ : Type*}
  [DatagramWriter Writer₁] [DatagramReader Reader₁]
  [DatagramWriter Writer₂] [DatagramReader Reader₂]

/-- `transfer_datagrams` relays one channel of datagrams to another. -/
theorem transferDatagrams_eq (rounds : ℕ) (reader : Reader₁) (writer : Writer₂)
    (stream : ByteStream) :
    transferDatagrams rounds reader writer stream =
      (datagramFraming Writer₁ Reader₁).relay (datagramFraming Writer₂ Reader₂)
        rounds reader writer stream := by
  induction rounds generalizing reader writer stream with
  | zero => rfl
  | succ rounds ih =>
      rw [transferDatagrams, Framing.relay]
      simp only [datagramFraming]
      rcases DatagramReader.recv reader stream with ⟨_ | src, reader', rest⟩
      · rfl
      simp only
      rcases DatagramWriter.send writer src with ⟨_ | bytes, writer'⟩
      · rfl
      · simp only [ih, datagramFraming]

/-- The messages written to one connection and transferred to another are read
there with their boundaries; the transfer ends with the first connection. -/
def Transfers (writer₁ : Writer₁) (reader₁ : Reader₁) (writer₂ : Writer₂)
    (reader₂ : Reader₂) (messages : List (List UInt8)) : Prop :=
  ∃ bytes₁ last₁,
    (datagramFraming Writer₁ Reader₁).writeAll writer₁ messages =
        (bytes₁, .ok last₁) ∧
      ∀ chunks₁ : List (List UInt8), chunks₁.flatten = bytes₁ →
        ∀ rounds, messages.length < rounds →
          ∃ bytes₂, transferDatagrams rounds reader₁ writer₂ (.ofChunks chunks₁) =
              (bytes₂, some .msgNetworkReadCheckSum) ∧
            ∀ chunks₂ : List (List UInt8), chunks₂.flatten = bytes₂ → ∀ reads,
              (datagramFraming Writer₂ Reader₂).readAll reads reader₂
                  (.ofChunks chunks₂) =
                (messages.take reads,
                  if reads ≤ messages.length then none
                  else some .msgNetworkReadCheckSum)

theorem transfers_of_roundTrips {writer₁ : Writer₁} {reader₁ : Reader₁}
    {writer₂ : Writer₂} {reader₂ : Reader₂} {messages : List (List UInt8)}
    (hfirst : (datagramFraming Writer₁ Reader₁).RoundTrips writer₁ reader₁
      .msgNetworkReadCheckSum messages)
    (hsecond : (datagramFraming Writer₂ Reader₂).RoundTrips writer₂ reader₂
      .msgNetworkReadCheckSum messages) :
    Transfers writer₁ reader₁ writer₂ reader₂ messages := by
  obtain ⟨bytes₁, last₁, hwrite₁, hread₁⟩ := hfirst
  obtain ⟨bytes₂, last₂, hwrite₂, hread₂⟩ := hsecond
  refine ⟨bytes₁, last₁, hwrite₁, ?_⟩
  intro chunks hchunks rounds hrounds
  have hread := hread₁ chunks hchunks rounds
  rw [List.take_of_length_le hrounds.le, if_neg (not_le.mpr hrounds)] at hread
  refine ⟨bytes₂, ?_, hread₂⟩
  have hrelay : transferDatagrams rounds reader₁ writer₂ (.ofChunks chunks) =
      (datagramFraming Writer₁ Reader₁).relay (datagramFraming Writer₂ Reader₂)
        rounds reader₁ writer₂ (.ofChunks chunks) := transferDatagrams_eq _ _ _ _
  rw [hrelay]
  exact Framing.relay_eq hread hwrite₂

end Transfers

/-! ## Hostile streams -/

section Guards

variable {aead : Aes256Gcm} {writerProcess readerProcess : Option AesKeyType}
  {checksumKey : Option AesKeyType}

/-- Whatever a stream holds and however often it is read, the buffer stays within
the limit, and a message that is returned stood in the stream as a body behind an
accepted header. -/
def ReadsGuarded {Writer Reader : Type*}
    (framing : Framing Writer Reader (List UInt8) Error)
    (buffer : Reader → List UInt8) (processKey checksumKey : Option AesKeyType)
    (reader : Reader) : Prop :=
  ∀ (chunks : List (List UInt8)) (reads : ℕ) (reached : Reader)
    (stream : ByteStream),
    framing.afterReads reads reader (.ofChunks chunks) = (reached, stream) →
    (buffer reached).length ≤ maxMsgLen ∧
      ∀ message next rest, framing.read reached stream = (.ok message, next, rest) →
        message.length ≤ maxMsgLen ∧
          ∃ header body,
            HeaderAccepted processKey checksumKey header body.length ∧
              message.length ≤ body.length ∧
              stream.bytes = header ++ (body ++ rest.bytes)

/-- A reader whose buffer is within the limit and that checks under this key. -/
def NormalMessageReader.Guarded (checksumKey : Option AesKeyType)
    (reader : NormalMessageReader readerProcess) : Prop :=
  reader.buffer.length ≤ maxMsgLen ∧ reader.checksumKey = checksumKey

theorem NormalMessageReader.checksumKey_readMsg
    (reader : NormalMessageReader readerProcess) (stream : ByteStream) :
    (reader.readMsg stream).2.1.checksumKey = reader.checksumKey := by
  rw [readMsg]
  rcases getMsgLen readerProcess reader.checksumKey stream with
    ⟨_ | datalen, afterHeader⟩
  · rfl
  simp only
  rcases afterHeader.readExact datalen with ⟨_ | body, afterBody⟩
  · rfl
  · rfl

theorem NormalMessageReader.guarded_readMsg
    (reader : NormalMessageReader readerProcess) (stream : ByteStream)
    (hguarded : reader.Guarded checksumKey) :
    (reader.readMsg stream).2.1.Guarded checksumKey :=
  ⟨reader.length_readMsg_le stream hguarded.1,
    (reader.checksumKey_readMsg stream).trans hguarded.2⟩

theorem normalFraming_guarded {reader : NormalMessageReader readerProcess}
    (hguarded : reader.Guarded checksumKey) :
    ReadsGuarded (normalFraming writerProcess readerProcess)
      NormalMessageReader.buffer readerProcess checksumKey reader := by
  intro chunks reads reached stream hreads
  have hkept : ((normalFraming writerProcess readerProcess).afterReads reads
      reader (.ofChunks chunks)).1.Guarded checksumKey :=
    Framing.afterReads_invariant NormalMessageReader.guarded_readMsg reads _
      hguarded
  have hreached : reached.Guarded checksumKey := by rwa [hreads] at hkept
  refine ⟨hreached.1, ?_⟩
  intro message next rest hread
  obtain ⟨header, haccepted, hbytes, -⟩ := NormalMessageReader.readMsg_ok hread
  rw [hreached.2] at haccepted
  exact ⟨haccepted.datalen_le, header, message, haccepted, le_rfl, hbytes⟩

/-- A ciphertext is opened inside its buffer. -/
def OpensInPlace (aead : Aes256Gcm) : Prop :=
  ∀ key nonce aad sealed plain,
    aead.openInPlace key nonce aad sealed = some plain →
    plain.length ≤ sealed.length

theorem CodecMessageReader.readMsg_ok
    {reader next : CodecMessageReader aead readerProcess}
    {stream rest : ByteStream} {message : List UInt8} (hopens : OpensInPlace aead)
    (hread : reader.readMsg stream = (.ok message, next, rest)) :
    ∃ header body,
      HeaderAccepted readerProcess reader.reader.checksumKey header body.length ∧
        message.length ≤ body.length ∧
        stream.bytes = header ++ (body ++ rest.bytes) := by
  rw [readMsg] at hread
  rcases hinner : reader.reader.readMsg stream with ⟨_ | body, inner, after⟩
  · simp [hinner] at hread
  obtain ⟨header, haccepted, hbytes, -⟩ := NormalMessageReader.readMsg_ok hinner
  simp only [hinner, Aes256GcmDeCodec.decrypt] at hread
  split at hread
  · simp at hread
  · rename_i plain decryptor hopen
    simp only [Prod.mk.injEq, Except.ok.injEq] at hread
    obtain ⟨rfl, -, rfl⟩ := hread
    exact ⟨header, body, haccepted,
      hopens _ _ _ _ _ (Prod.mk.inj hopen).1, hbytes⟩

def CodecMessageReader.Guarded (checksumKey : Option AesKeyType)
    (reader : CodecMessageReader aead readerProcess) : Prop :=
  reader.reader.Guarded checksumKey

/-- Neither a read that fails nor one whose plaintext replaces its ciphertext
makes the buffer outgrow the limit. -/
theorem CodecMessageReader.guarded_readMsg (hopens : OpensInPlace aead)
    (reader : CodecMessageReader aead readerProcess) (stream : ByteStream)
    (hguarded : reader.Guarded checksumKey) :
    (reader.readMsg stream).2.1.Guarded checksumKey := by
  have hinner := reader.reader.guarded_readMsg stream hguarded
  rw [readMsg]
  rcases hread : reader.reader.readMsg stream with ⟨_ | body, inner, after⟩
  · rwa [hread] at hinner
  rw [hread] at hinner
  obtain ⟨header, haccepted, -, hnext⟩ := NormalMessageReader.readMsg_ok hread
  have hbuffer : inner.buffer = body := by rw [hnext]
  simp only [Aes256GcmDeCodec.decrypt]
  rcases hopen : aead.openInPlace reader.decryptor.key
      (counterNonce reader.decryptor.counter) [] body with _ | plain
  · exact hinner
  · have hplain : plain.length ≤ inner.buffer.length := by
      rw [hbuffer]
      exact hopens _ _ _ _ _ hopen
    exact ⟨(length_overwrite hplain).le.trans hinner.1, hinner.2⟩

theorem codecFraming_guarded (hopens : OpensInPlace aead)
    {reader : CodecMessageReader aead readerProcess}
    (hguarded : reader.Guarded checksumKey) :
    ReadsGuarded (codecFraming aead writerProcess readerProcess)
      (fun reader => reader.reader.buffer) readerProcess checksumKey reader := by
  intro chunks reads reached stream hreads
  have hkept : ((codecFraming aead writerProcess readerProcess).afterReads reads
      reader (.ofChunks chunks)).1.Guarded checksumKey :=
    Framing.afterReads_invariant (CodecMessageReader.guarded_readMsg hopens) reads
      _ hguarded
  have hreached : reached.Guarded checksumKey := by rwa [hreads] at hkept
  refine ⟨hreached.1, ?_⟩
  intro message next rest hread
  obtain ⟨header, body, haccepted, hplain, hbytes⟩ :=
    CodecMessageReader.readMsg_ok hopens hread
  rw [hreached.2] at haccepted
  exact ⟨hplain.trans haccepted.datalen_le, header, body, haccepted, hplain,
    hbytes⟩

/-- A datagram reader is guarded as the message reader inside it is. -/
theorem ReadsGuarded.wrap {Writer Reader Writer' Reader' : Type*}
    {framing : Framing Writer Reader (List UInt8) Error}
    {wrapped : Framing Writer' Reader' (List UInt8) Error}
    {buffer : Reader → List UInt8} {processKey : Option AesKeyType}
    (readers : Reader' ≃ Reader) {reader : Reader'}
    (hguarded : ReadsGuarded framing buffer processKey checksumKey (readers reader))
    (hread : ∀ reader stream, wrapped.read reader stream =
      ((framing.read (readers reader) stream).1,
        readers.symm (framing.read (readers reader) stream).2.1,
        (framing.read (readers reader) stream).2.2)) :
    ReadsGuarded wrapped (fun reader => buffer (readers reader)) processKey
      checksumKey reader := by
  intro chunks reads reached stream hreads
  have hinner : framing.afterReads reads (readers reader) (.ofChunks chunks) =
      (readers reached, stream) := by
    rw [Framing.afterReads_wrap readers hread, hreads]
  obtain ⟨hbuffer, hreturned⟩ := hguarded chunks reads _ _ hinner
  refine ⟨hbuffer, ?_⟩
  intro message next rest hok
  rw [hread, Prod.mk.injEq, Prod.mk.injEq] at hok
  exact hreturned message _ rest
    (Prod.ext hok.1 (Prod.ext rfl hok.2.2))

end Guards

/-! ## The two ends of a connection -/

/-- Both ends frame under one key, whichever of them takes it from its process;
where they encrypt they share a session key and have come to one counter. -/
structure MessageEnds where
  key : AesKeyType
  writerProcess : Option AesKeyType
  writerKey : Option AesKeyType
  readerProcess : Option AesKeyType
  readerKey : Option AesKeyType
  writer_keyed : writerKey.or writerProcess = some key
  reader_keyed : readerKey.or readerProcess = some key
  sessionKey : AesKeyType
  counter : ℕ
  buffer : List UInt8
  length_buffer : buffer.length ≤ maxMsgLen

namespace MessageEnds

variable (ends : MessageEnds) (aead : Aes256Gcm)

def normalWriter : NormalMessageWriter ends.writerProcess := ⟨ends.writerKey⟩

def normalReader : NormalMessageReader ends.readerProcess :=
  ⟨ends.buffer, ends.readerKey⟩

def codecWriter : CodecMessageWriter aead ends.writerProcess :=
  ⟨⟨ends.sessionKey, ends.counter⟩, ends.writerKey⟩

def codecReader : CodecMessageReader aead ends.readerProcess :=
  ⟨ends.normalReader, ⟨ends.sessionKey, ends.counter⟩⟩

theorem normalInStep : NormalInStep ends.key ends.normalWriter ends.normalReader :=
  ⟨ends.writer_keyed, ends.reader_keyed⟩

theorem codecInStep : CodecInStep ends.key ends.sessionKey
    (ends.codecWriter aead) (ends.codecReader aead) :=
  ⟨ends.normalInStep, rfl, rfl, rfl⟩

theorem normalReader_guarded : ends.normalReader.Guarded ends.readerKey :=
  ⟨ends.length_buffer, rfl⟩

/-- Every kind of connection between these ends reads back what it is given. -/
def RoundTrip (messages : List (List UInt8)) : Prop :=
  (normalFraming ends.writerProcess ends.readerProcess).RoundTrips
      ends.normalWriter ends.normalReader .msgNetworkReadCheckSum messages ∧
    (codecFraming aead ends.writerProcess ends.readerProcess).RoundTrips
      (ends.codecWriter aead) (ends.codecReader aead) .msgNetworkReadCheckSum
      messages ∧
    (datagramFraming _ _).RoundTrips
      (NormalDatagramWriter.mk ends.normalWriter)
      (NormalDatagramReader.mk ends.normalReader) .msgNetworkReadCheckSum
      messages ∧
    (datagramFraming _ _).RoundTrips
      (CodecDatagramWriter.mk (ends.codecWriter aead))
      (CodecDatagramReader.mk (ends.codecReader aead)) .msgNetworkReadCheckSum
      messages

theorem roundTrip {messages : List (List UInt8)}
    (hfits : ∀ message ∈ messages, WithinLimit message) :
    ends.RoundTrip aead messages :=
  ⟨(normalFraming_lawful ends.key).roundTrips hfits ends.normalInStep,
    (codecFraming_lawful ends.key ends.sessionKey).roundTrips hfits
      (ends.codecInStep aead),
    (normalDatagrams_lawful ends.key).roundTrips hfits ends.normalInStep,
    (codecDatagrams_lawful ends.key ends.sessionKey).roundTrips hfits
      (ends.codecInStep aead)⟩

/-- Datagrams survive a transfer to the ends of another connection, from each
kind of connection to each. -/
def TransferRoundTrip (other : MessageEnds) (messages : List (List UInt8)) :
    Prop :=
  Transfers (NormalDatagramWriter.mk ends.normalWriter)
      (NormalDatagramReader.mk ends.normalReader)
      (NormalDatagramWriter.mk other.normalWriter)
      (NormalDatagramReader.mk other.normalReader) messages ∧
    Transfers (NormalDatagramWriter.mk ends.normalWriter)
      (NormalDatagramReader.mk ends.normalReader)
      (CodecDatagramWriter.mk (other.codecWriter aead))
      (CodecDatagramReader.mk (other.codecReader aead)) messages ∧
    Transfers (CodecDatagramWriter.mk (ends.codecWriter aead))
      (CodecDatagramReader.mk (ends.codecReader aead))
      (NormalDatagramWriter.mk other.normalWriter)
      (NormalDatagramReader.mk other.normalReader) messages ∧
    Transfers (CodecDatagramWriter.mk (ends.codecWriter aead))
      (CodecDatagramReader.mk (ends.codecReader aead))
      (CodecDatagramWriter.mk (other.codecWriter aead))
      (CodecDatagramReader.mk (other.codecReader aead)) messages

theorem transferRoundTrip (other : MessageEnds) {messages : List (List UInt8)}
    (hfits : ∀ message ∈ messages, WithinLimit message) :
    ends.TransferRoundTrip aead other messages := by
  obtain ⟨-, -, hnormal₁, hcodec₁⟩ := ends.roundTrip aead hfits
  obtain ⟨-, -, hnormal₂, hcodec₂⟩ := other.roundTrip aead hfits
  exact ⟨transfers_of_roundTrips hnormal₁ hnormal₂,
    transfers_of_roundTrips hnormal₁ hcodec₂,
    transfers_of_roundTrips hcodec₁ hnormal₂,
    transfers_of_roundTrips hcodec₁ hcodec₂⟩

/-- None of the readers is led astray by any stream. -/
def Guards : Prop :=
  ReadsGuarded (normalFraming ends.writerProcess ends.readerProcess)
      NormalMessageReader.buffer ends.readerProcess ends.readerKey
      ends.normalReader ∧
    ReadsGuarded (codecFraming aead ends.writerProcess ends.readerProcess)
      (fun reader => reader.reader.buffer) ends.readerProcess ends.readerKey
      (ends.codecReader aead) ∧
    ReadsGuarded
      (datagramFraming (NormalDatagramWriter ends.writerProcess)
        (NormalDatagramReader ends.readerProcess))
      (fun reader => reader.reader.buffer) ends.readerProcess ends.readerKey
      ⟨ends.normalReader⟩ ∧
    ReadsGuarded
      (datagramFraming (CodecDatagramWriter aead ends.writerProcess)
        (CodecDatagramReader aead ends.readerProcess))
      (fun reader => reader.reader.reader.buffer) ends.readerProcess
      ends.readerKey ⟨ends.codecReader aead⟩

theorem guards (hopens : OpensInPlace aead) : ends.Guards aead := by
  have hnormal : ReadsGuarded (normalFraming ends.writerProcess ends.readerProcess)
      NormalMessageReader.buffer ends.readerProcess ends.readerKey
      ends.normalReader := normalFraming_guarded ends.normalReader_guarded
  have hcodec : ReadsGuarded
      (codecFraming aead ends.writerProcess ends.readerProcess)
      (fun reader => reader.reader.buffer) ends.readerProcess ends.readerKey
      (ends.codecReader aead) :=
    codecFraming_guarded hopens ends.normalReader_guarded
  exact ⟨hnormal, hcodec,
    hnormal.wrap (normalDatagramReaders ends.readerProcess) fun _ _ => rfl,
    hcodec.wrap (codecDatagramReaders aead ends.readerProcess) fun _ _ => rfl⟩

end MessageEnds

/-- Both ends under one key that only the writer's process holds by itself. -/
def MessageEnds.sample : MessageEnds where
  key := .replicate 32 7
  writerProcess := some (.replicate 32 7)
  writerKey := none
  readerProcess := none
  readerKey := some (.replicate 32 7)
  writer_keyed := rfl
  reader_keyed := rfl
  sessionKey := .replicate 32 1
  counter := 0
  buffer := []
  length_buffer := Nat.zero_le _

theorem transparent_opensInPlace : OpensInPlace .transparent := by
  rintro key nonce aad sealed plain hopen
  rw [← Option.some.inj hopen]
  exact List.length_take_le' _ _

/-- Length-prefixed messages are read back with their boundaries over any
chunking, and every stream is read within the limit and under the checksum key. -/
theorem messageFraming_exact (aead : Aes256Gcm) (hopens : OpensInPlace aead)
    (ends other : MessageEnds) :
    (∀ messages : List (List UInt8),
      (∀ message ∈ messages, message.length ≤ maxPlaintextLen) →
      messages.length < 2 ^ 32 →
      ends.RoundTrip aead messages ∧ ends.TransferRoundTrip aead other messages) ∧
    ends.Guards aead :=
  ⟨fun _ hfits _ => ⟨ends.roundTrip aead hfits,
    ends.transferRoundTrip aead other hfits⟩, ends.guards aead hopens⟩

/-- Among the messages are empty ones. -/
theorem messageFraming_exact_sample :
    MessageEnds.sample.RoundTrip .transparent [[], [1, 2, 3], []] :=
  ((messageFraming_exact .transparent transparent_opensInPlace .sample
    .sample).1 [[], [1, 2, 3], []] (by decide) (by decide)).1

end PbMapper.Protocol

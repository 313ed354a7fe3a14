import PbMapper.Protocol.V2RoundTrip

/-!
# What a reader yields of any byte stream

An ideal seal opens nothing that was not sealed, so whatever stream an adversary
assembles, a message that a reader yields was sealed under the reader's key, at
the reader's counter and behind the reader's prefix.
-/

namespace PbMapper.Protocol

open Auth BigEndian PbMapper.Core MachineWord

/-! ## What was sealed -/

namespace V2Transcript

/-- Every message that reaches the wire, sealed at its counter. -/
def seals (transcript : V2Transcript) : List Seal :=
  (transcript.sent.zipIdx transcript.counter).map fun entry =>
    messageSeal transcript.material transcript.direction entry.2 entry.1

/-- Directional keys are independent: no two transcripts share one. -/
def Independent (transcripts : List V2Transcript) : Prop :=
  ∀ left ∈ transcripts, ∀ right ∈ transcripts,
    directionKey left.material left.direction =
      directionKey right.material right.direction → left = right

end V2Transcript

/-- The ideal seal, on one byte stream: whatever opens a part of the stream was
sealed under the same key, nonce and associated data. -/
def Unforged (aead : Aes256Gcm) (sealings : List Seal) (bytes : List UInt8) :
    Prop :=
  ∀ sealed, sealed <:+: bytes → ∀ key nonce aad plain,
    aead.openInPlace key nonce aad sealed = some plain →
      ⟨key, nonce, aad, plain⟩ ∈ sealings

theorem Unforged.mono {aead : Aes256Gcm} {sealings : List Seal}
    {bytes part : List UInt8} (hunforged : Unforged aead sealings bytes)
    (hpart : part <:+: bytes) : Unforged aead sealings part :=
  fun sealed hsealed => hunforged sealed (hsealed.trans hpart)

/-- The seals in play: those of the transcripts, and those of the legacy codec
and of the data tunnels, which bind no associated data. -/
structure Sealings where
  transcripts : List V2Transcript
  independent : V2Transcript.Independent transcripts
  codec : List Seal
  unbound : ∀ sealing ∈ codec, sealing.aad = []

def Sealings.all (sealings : Sealings) : List Seal :=
  sealings.transcripts.flatMap V2Transcript.seals ++ sealings.codec

section Seals

variable {transcript : V2Transcript}

theorem V2Transcript.mem_seals {sealing : Seal} :
    sealing ∈ transcript.seals ↔
      ∃ index message, transcript.sent[index]? = some message ∧
        sealing = messageSeal transcript.material transcript.direction
          (transcript.counter + index) message := by
  rw [seals, List.mem_map]
  constructor
  · rintro ⟨⟨message, counter⟩, hmem, rfl⟩
    obtain ⟨hle, hget⟩ := List.mk_mem_zipIdx_iff_le_and_getElem?_sub.mp hmem
    exact ⟨counter - transcript.counter, message, hget, by
      rw [Nat.add_sub_cancel' hle]⟩
  · rintro ⟨index, message, hget, rfl⟩
    refine ⟨(message, transcript.counter + index), ?_, rfl⟩
    apply List.mk_mem_zipIdx_iff_le_and_getElem?_sub.mpr
    rw [Nat.add_sub_cancel_left]
    exact ⟨Nat.le_add_right _ _, hget⟩

/-- What is sent is a message, at a counter that is not exhausted. -/
theorem V2Transcript.getElem?_sent {index : ℕ} {message : List UInt8}
    (hsent : transcript.sent[index]? = some message) :
    transcript.counter + index ≤ u64Max ∧
      transcript.messages[index]? = some message := by
  have hcounter := transcript.counter_le
  rw [sent, List.getElem?_take] at hsent
  split at hsent
  · exact ⟨by omega, hsent⟩
  · cases hsent

theorem nonce_injOn {left right : ℕ} (hleft : left ≤ u64Max)
    (hright : right ≤ u64Max) (heq : nonce left = nonce right) :
    left = right :=
  toBeBytes_injOn (Nat.lt_of_le_of_lt hleft (by decide))
    (Nat.lt_of_le_of_lt hright (by decide)) (List.append_cancel_left heq)

theorem Direction.byte_injective : Function.Injective Direction.byte := by
  intro left right heq
  cases left <;> cases right <;> first | rfl | cases heq

/-- The associated data binds the prefix and the direction. -/
theorem frameAad_inj {left right : V2Material}
    {leftDirection rightDirection : Direction}
    {leftCounter rightCounter leftLen rightLen : ℕ}
    (heq : frameAad left leftDirection leftCounter leftLen =
      frameAad right rightDirection rightCounter rightLen) :
    firstPrefix left = firstPrefix right ∧ leftDirection = rightDirection := by
  simp only [frameAad, List.append_assoc] at heq
  have hlength : (firstPrefix left).length = (firstPrefix right).length := by
    rw [length_firstPrefix, length_firstPrefix]
  obtain ⟨hstarts, hrest⟩ := List.append_inj heq hlength
  obtain ⟨hbyte, -⟩ := List.append_inj hrest rfl
  exact ⟨hstarts, Direction.byte_injective (List.cons.inj hbyte).1⟩

theorem frameAad_ne_nil (material : V2Material) (direction : Direction)
    (counter datalen : ℕ) : frameAad material direction counter datalen ≠ [] := by
  simp [frameAad]

end Seals

section Opened

variable {aead : Aes256Gcm} {sealings : Sealings} {bytes sealed plain : List UInt8}

/-- What opens under a frame's key, nonce and associated data is the message of
one transcript at that counter, with that prefix, direction and key. -/
theorem transcript_of_open {material : V2Material} {direction : Direction}
    {counter datalen : ℕ} (hunforged : Unforged aead sealings.all bytes)
    (hsealed : sealed <:+: bytes) (hcounter : counter ≤ u64Max)
    (hopen : aead.openInPlace (directionKey material direction) (nonce counter)
      (frameAad material direction counter datalen) sealed = some plain) :
    ∃ transcript ∈ sealings.transcripts,
      firstPrefix transcript.material = firstPrefix material ∧
      transcript.direction = direction ∧
      directionKey transcript.material transcript.direction =
        directionKey material direction ∧
      ∃ index, transcript.counter + index = counter ∧
        transcript.messages[index]? = some plain := by
  have hmem := hunforged sealed hsealed _ _ _ _ hopen
  rw [Sealings.all, List.mem_append] at hmem
  rcases hmem with hmem | hmem
  · obtain ⟨transcript, htranscript, hseal⟩ := List.mem_flatMap.mp hmem
    obtain ⟨index, message, hget, heq⟩ := V2Transcript.mem_seals.mp hseal
    simp only [messageSeal, Seal.mk.injEq] at heq
    obtain ⟨hkey, hnonce, haad, rfl⟩ := heq
    obtain ⟨hstarts, hdirection⟩ := frameAad_inj haad
    obtain ⟨hlast, hmessage⟩ := V2Transcript.getElem?_sent hget
    exact ⟨transcript, htranscript, hstarts.symm, hdirection.symm, hkey.symm,
      index, (nonce_injOn hcounter hlast hnonce).symm, hmessage⟩
  · exact absurd (sealings.unbound _ hmem) (frameAad_ne_nil _ _ _ _)

end Opened

/-! ## Later messages -/

/-- However long it is read, a stream yields no more than a prefix of the
messages written; and it comes to an error. -/
def YieldsPrefix (aead : Aes256Gcm) (reader : V2MessageReader)
    (stream : ByteStream) (written : List (List UInt8)) : Prop :=
  ∀ reads, (reader.readMsgs aead reads stream).1 <+: written ∧
    (stream.bytes.length < reads →
      ∃ error, (reader.readMsgs aead reads stream).2 = some error)

section Readers

variable {aead : Aes256Gcm} {reader next : V2MessageReader}
  {stream rest : ByteStream} {plain : List UInt8}

/-- A message that a read yields stood sealed in the stream. -/
theorem V2MessageReader.readMsg_ok
    (hread : reader.readMsg aead stream = (.ok (plain, next), rest)) :
    next = { reader with expectedCounter := reader.expectedCounter + 1 } ∧
      reader.expectedCounter < u64Max ∧
      ∃ header sealed, header.length = 12 ∧
        stream.bytes = header ++ (sealed ++ rest.bytes) ∧
        aead.openInPlace (directionKey reader.material reader.direction)
          (nonce reader.expectedCounter)
          (frameAad reader.material reader.direction reader.expectedCounter
            sealed.length) sealed = some plain := by
  rw [readMsg, readMsgWithLimit] at hread
  rcases hframe : readV2Frame reader.expectedCounter (maxMsgLen - codecTagLen)
    stream with ⟨error | ⟨counter, sealed⟩, after⟩
  · simp [hframe] at hread
  obtain ⟨rfl, hcounter, -, -, header, hheader, hbytes⟩ := readV2Frame_ok hframe
  simp only [hframe] at hread
  split at hread
  · simp at hread
  split at hread
  · simp at hread
  rename_i opened hopen
  split at hread
  · simp at hread
  rename_i hlast
  simp only [Prod.mk.injEq, Except.ok.injEq] at hread
  obtain ⟨⟨rfl, rfl⟩, rfl⟩ := hread
  exact ⟨rfl, Nat.lt_of_le_of_ne hcounter hlast, header, sealed, hheader, hbytes,
    hopen⟩

/-- Every message takes bytes of the stream, so reading comes to an error. -/
theorem V2MessageReader.readMsgs_error {reads : ℕ}
    (hreads : stream.bytes.length < reads) :
    ∃ error, (reader.readMsgs aead reads stream).2 = some error := by
  induction reads generalizing reader stream with
  | zero => exact absurd hreads (Nat.not_lt_zero _)
  | succ reads ih =>
      rw [readMsgs]
      rcases hread : reader.readMsg aead stream with ⟨error | ⟨plain, next⟩, rest⟩
      · exact ⟨error, rfl⟩
      · obtain ⟨-, -, header, sealed, hheader, hbytes, -⟩ := readMsg_ok hread
        have hlength := congrArg List.length hbytes
        rw [List.length_append, List.length_append] at hlength
        exact ih (by omega)

variable {sealings : Sealings} {transcript : V2Transcript}

/-- A reader with a transcript's key that has reached its `index`th message
yields a prefix of the rest. -/
theorem yieldsPrefix_drop {index : ℕ}
    (htranscript : transcript ∈ sealings.transcripts)
    (hkey : directionKey transcript.material transcript.direction =
      directionKey reader.material reader.direction)
    (hcounter : reader.expectedCounter = transcript.counter + index)
    (hunforged : Unforged aead sealings.all stream.bytes) :
    YieldsPrefix aead reader stream (transcript.messages.drop index) := by
  intro reads
  refine ⟨?_, V2MessageReader.readMsgs_error⟩
  induction reads generalizing reader stream index with
  | zero => exact List.nil_prefix
  | succ reads ih =>
      rw [V2MessageReader.readMsgs]
      rcases hread : reader.readMsg aead stream with ⟨error | ⟨plain, next⟩, rest⟩
      · exact List.nil_prefix
      obtain ⟨rfl, hlast, header, sealed, -, hbytes, hopen⟩ :=
        V2MessageReader.readMsg_ok hread
      have hsealed : sealed <:+: stream.bytes := ⟨header, rest.bytes, by
        rw [hbytes, List.append_assoc]⟩
      have hrest : rest.bytes <:+: stream.bytes := ⟨header ++ sealed, [], by
        rw [hbytes, List.append_nil, List.append_assoc]⟩
      obtain ⟨other, hother, -, -, hotherKey, position, hposition, hget⟩ :=
        transcript_of_open hunforged hsealed hlast.le hopen
      -- Independent keys leave only the reader's own transcript.
      obtain rfl := sealings.independent other hother transcript htranscript
        (hotherKey.trans hkey.symm)
      obtain rfl : position = index := by omega
      have hlater : (V2MessageReader.readMsgs aead reads
          { reader with expectedCounter := reader.expectedCounter + 1 } rest).1 <+:
            other.messages.drop (position + 1) :=
        ih hkey (by simp only [hcounter, Nat.add_assoc]) (hunforged.mono hrest)
      obtain ⟨hindex, rfl⟩ := List.getElem?_eq_some_iff.mp hget
      rw [List.drop_eq_getElem_cons hindex]
      exact List.cons_prefix_cons.mpr ⟨rfl, hlater⟩

end Readers

/-! ## The first flight -/

section FirstFlight

variable {crypto : V2Crypto} {Context : Type*} {bytes : ℕ+}
  {security : ServerSecurity Context bytes} {stream rest : ByteStream}
  {initial : ServerInitialMessage Context}

/-- A granted flight of the current root stood sealed in its frame. -/
theorem open_of_firstFlightWork {keyId : KeyId} {key : AesKeyType} {salt : Salt}
    {frame : Except String (ℕ × List UInt8)} {previousKey : Option AesKeyType}
    {authenticated : Except AuthFailure Context} {payload : List UInt8}
    {context : Context} {work : FirstFlightWork Context}
    (hwork : firstFlightWork crypto keyId salt
      ⟨.ok key, frame, previousKey, authenticated⟩ = .ok work)
    (hgranted : security.evaluate crypto keyId key salt work =
      .ok (payload, context)) :
    ∃ counter ciphertext, frame = .ok (counter, ciphertext) ∧
      openV2Payload crypto (deriveMaterial crypto keyId key salt)
        .clientToServer counter ciphertext = .ok payload := by
  rw [firstFlightWork] at hwork
  rcases frame with error | ⟨counter, ciphertext⟩
  · cases hwork
  refine ⟨counter, ciphertext, rfl, ?_⟩
  dsimp only at hwork
  split at hwork
  · rename_i opened hopen
    rw [← Except.ok.inj hwork] at hgranted
    rw [hopen, payload_of_evaluate_live hgranted]
  · split at hwork
    · rename_i stale hstale
      -- A flight sealed under the previous root is only ever refused.
      rw [← Except.ok.inj hwork, ServerSecurity.evaluate,
        evaluateFirstFlight.eq_def] at hgranted
      rcases stale with ⟨failure, _ | session, presentedKeyId⟩ <;>
        cases hgranted
    · cases hwork

/-- `open_v2_payload` opens under the associated data of its arguments. -/
theorem openInPlace_of_openV2Payload {material : V2Material}
    {direction : Direction} {counter : ℕ} {ciphertext payload : List UInt8}
    (hopen : openV2Payload crypto material direction counter ciphertext =
      .ok payload) :
    crypto.aead.openInPlace (directionKey material direction) (nonce counter)
      (frameAad material direction counter ciphertext.length) ciphertext =
      some payload := by
  rw [openV2Payload] at hopen
  split at hopen
  · cases hopen
  split at hopen
  · rename_i opened hopened
    rw [hopened, Except.ok.inj hopen]
  · cases hopen

/-- What `read_v2_initial` yields was sealed behind the prefix it read. -/
theorem ServerSecurity.readV2Initial_ok
    (hread : security.readV2Initial crypto stream = (.ok initial, rest)) :
    ∃ keyId key salt context sealed,
      let material := deriveMaterial crypto keyId key salt
      initial.session = ⟨.v2, key, some material, some context⟩ ∧
      firstPrefix material = protocolV2Magic ++ stream.bytes.take 28 ∧
      sealed <:+: stream.bytes ∧ rest.bytes <:+: stream.bytes ∧
      crypto.aead.openInPlace (directionKey material .clientToServer) (nonce 0)
        (frameAad material .clientToServer 0 sealed.length) sealed =
        some initial.payload := by
  rw [readV2Initial] at hread
  rcases hremainder : stream.readExact 28 with ⟨_ | remainder, afterPrefix⟩
  · simp [hremainder] at hread
  simp only [hremainder] at hread
  rcases hstarts : (readV2Prefix remainder security.now :
    Except (ServerInitialError Context) (KeyId × Salt)) with error | ⟨keyId, salt⟩
  · simp [hstarts] at hread
  simp only [hstarts] at hread
  rcases hkey : security.deriveKey keyId with failure | key
  · simp [hkey] at hread
  simp only [hkey] at hread
  rcases hframe : readV2Frame 0 maxInitialPlaintextLen afterPrefix with
    ⟨frame, afterFrame⟩
  simp only [hframe] at hread
  split at hread
  · simp at hread
  rename_i work hwork
  rcases hgranted : security.evaluate crypto keyId key salt work with
    error | ⟨payload, context⟩
  · simp [hgranted] at hread
  simp only [hgranted, Prod.mk.injEq, Except.ok.injEq] at hread
  obtain ⟨rfl, rfl⟩ := hread
  obtain ⟨counter, sealed, rfl, hopen⟩ := open_of_firstFlightWork hwork hgranted
  obtain ⟨rfl, -, -, -, header, -, hbytes⟩ := readV2Frame_ok hframe
  have hstream := ByteStream.bytes_of_readExact hremainder
  have hfirst : firstPrefix (deriveMaterial crypto keyId key salt) =
      protocolV2Magic ++ remainder.toList :=
    ((readV2Prefix_eq_ok rfl).mp hstarts).1
  refine ⟨keyId, key, salt, context, sealed, rfl, ?_, ?_, ?_,
    openInPlace_of_openV2Payload hopen⟩
  · rw [hfirst, hstream, List.take_left' (Vector.length_toList)]
  · exact ⟨remainder.toList ++ header, afterFrame.bytes, by
      rw [hstream, hbytes]
      simp only [List.append_assoc]⟩
  · exact ⟨remainder.toList ++ (header ++ sealed), [], by
      rw [hstream, hbytes]
      simp only [List.append_assoc, List.append_nil]⟩

/-- What `read_legacy_initial` yields was sealed without associated data. -/
theorem ServerSecurity.readLegacyInitial_ok {checksumBytes : Vector UInt8 4}
    (hread : security.readLegacyInitial crypto checksumBytes stream =
      (.ok initial, rest)) :
    ∃ key sealed, initial.session.protocol = .legacy ∧
      security.adminKey = .ok key ∧ sealed <:+: stream.bytes ∧
      crypto.aead.openInPlace key (counterNonce 0) [] sealed =
        some initial.payload := by
  rw [readLegacyInitial] at hread
  split at hread
  · simp at hread
  rcases hkey : security.adminKey with failure | key
  · simp [hkey] at hread
  simp only [hkey] at hread
  rcases hheader : stream.readExact 4 with ⟨_ | header, afterHeader⟩
  · simp [hheader] at hread
  simp only [hheader] at hread
  split at hread
  · simp at hread
  rcases hbody : afterHeader.readExact (fromBeBytes header.toList) with
    ⟨_ | encrypted, afterBody⟩
  · simp [hbody] at hread
  simp only [hbody, Aes256GcmDeCodec.decrypt] at hread
  rcases hopen : crypto.aead.openInPlace key (counterNonce 0) []
    encrypted.toList with _ | plain
  · simp [hopen] at hread
  simp only [hopen] at hread
  split at hread
  · simp at hread
  split at hread
  · simp at hread
  simp only [Prod.mk.injEq, Except.ok.injEq] at hread
  obtain ⟨rfl, rfl⟩ := hread
  refine ⟨key, encrypted.toList, rfl, rfl, ?_, hopen⟩
  exact ⟨header.toList, afterBody.bytes, by
    rw [ByteStream.bytes_of_readExact hheader, ByteStream.bytes_of_readExact hbody,
      List.append_assoc]⟩

/-- A server that accepts a first flight takes it from the transcript its clear
prefix names, and yields a prefix of that transcript; or it takes a message that
the legacy codec sealed under the administrator key. -/
def ServerYieldsPrefix (crypto : V2Crypto)
    (security : ServerSecurity Context bytes) (sealings : Sealings)
    (stream : ByteStream) : Prop :=
  ∀ initial rest, security.readInitial crypto stream = (.ok initial, rest) →
    (initial.session.protocol = .legacy ∧
      ∃ sealing ∈ sealings.codec, security.adminKey = .ok sealing.key ∧
        sealing.plain = initial.payload) ∨
    ∃ transcript ∈ sealings.transcripts,
      transcript.direction = .clientToServer ∧ transcript.counter = 0 ∧
      firstPrefix transcript.material = stream.bytes.take 32 ∧
      ∃ later reader, transcript.messages = initial.payload :: later ∧
        initial.session.continuationReader = .ok (.v2 reader) ∧
        YieldsPrefix crypto.aead reader rest later

theorem serverYieldsPrefix {sealings : Sealings}
    (hunforged : Unforged crypto.aead sealings.all stream.bytes) :
    ServerYieldsPrefix crypto security sealings stream := by
  intro initial rest hread
  rw [ServerSecurity.readInitial] at hread
  rcases hfirst : stream.readExact 4 with ⟨_ | first, afterMagic⟩
  · simp [hfirst] at hread
  simp only [hfirst] at hread
  have hstream := ByteStream.bytes_of_readExact hfirst
  have hpart : ∀ {part : List UInt8}, part <:+: afterMagic.bytes →
      part <:+: stream.bytes := fun hinside => by
    rw [hstream]
    exact hinside.trans (List.suffix_append _ _).isInfix
  split at hread
  · rename_i hmagic
    right
    obtain ⟨keyId, key, salt, context, sealed, hsession, hstarts, hsealed, hrest,
      hopen⟩ := ServerSecurity.readV2Initial_ok hread
    obtain ⟨transcript, htranscript, hsame, hdirection, hkey, index, hindex,
      hget⟩ := transcript_of_open hunforged (hpart hsealed) (Nat.zero_le _) hopen
    obtain ⟨hcounter, rfl⟩ := Nat.add_eq_zero_iff.mp hindex
    obtain ⟨hlength, hpayload⟩ := List.getElem?_eq_some_iff.mp hget
    have hmessages : transcript.messages =
        initial.payload :: transcript.messages.drop 1 := by
      rw [← hpayload, ← List.drop_eq_getElem_cons hlength, List.drop_zero]
    refine ⟨transcript, htranscript, hdirection, hcounter, ?_, _, _, hmessages,
      by rw [ServerHeaderSession.continuationReader, hsession]; rfl, ?_⟩
    · rw [hsame, hstarts, hstream, hmagic]
      rfl
    · exact yieldsPrefix_drop htranscript hkey (by rw [hcounter])
        (hunforged.mono (hpart hrest))
  · left
    obtain ⟨key, sealed, hprotocol, hadmin, hsealed, hopen⟩ :=
      ServerSecurity.readLegacyInitial_ok hread
    have hmem := hunforged sealed (hpart hsealed) _ _ _ _ hopen
    rw [Sealings.all, List.mem_append] at hmem
    rcases hmem with hmem | hmem
    · -- A frame's associated data is never empty.
      obtain ⟨transcript, -, hseal⟩ := List.mem_flatMap.mp hmem
      obtain ⟨index, message, -, heq⟩ := V2Transcript.mem_seals.mp hseal
      simp only [messageSeal, Seal.mk.injEq] at heq
      exact absurd heq.2.2.1.symm (frameAad_ne_nil _ _ _ _)
    · exact ⟨hprotocol, _, hmem, hadmin, rfl⟩

end FirstFlight

/-! ## Exactness -/

/-- Over any chunking, a reader with the writer's material, direction and
counter reads `messages`, then reports an error. -/
def ReadsBack (aead : Aes256Gcm) (transcript : V2Transcript)
    (messages : List (List UInt8)) : Prop :=
  ∀ chunks, chunks.flatten =
      (transcript.writer.writeMsgs aead transcript.messages).1 →
    ∀ reads, transcript.messages.length < reads →
      ∃ error, transcript.reader.readMsgs aead reads (.ofChunks chunks) =
        (messages, some error)

/-- The connection of a client whose credential the server derives as well and
whose clock it accepts. -/
structure Presents {Context : Type*} {bytes : ℕ+}
    (security : ServerSecurity Context bytes) (keyId : KeyId) (key : AesKeyType)
    (salt : Salt) : Prop where
  derived : security.deriveKey keyId = .ok key
  notEarly : saltTimestamp salt ≤ security.now + maxConnectionClockSkewSeconds
  notLate : security.now ≤ saltTimestamp salt + maxConnectionClockSkewSeconds

/-- Over any chunking, a server reads the first flight and then `messages` of the
`later` ones the client was given, if the evaluation grants the flight; and answers
with the evaluation's error if not. -/
def FirstFlightReadsBack {Context : Type*} {bytes : ℕ+} (crypto : V2Crypto)
    (security : ServerSecurity Context bytes) (keyId : KeyId) (key : AesKeyType)
    (salt : Salt) (first : List UInt8) (later messages : List (List UInt8)) :
    Prop :=
  let session := ClientHeaderSession.newV2 crypto keyId key salt
  ∀ chunks, chunks.flatten = (session.writeInitial crypto first).1 ++
      (session.continuationWriter.writeMsgs crypto.aead later).1 →
    let evaluated := security.evaluate crypto keyId key salt (.live first
      (sessionWithoutContext (v2Session key session.v2Material)))
    (∀ error, evaluated = .error error → ∃ rest,
      security.readInitial crypto (.ofChunks chunks) = (.error error, rest)) ∧
    (∀ granted, evaluated = .ok granted → ∃ initial rest reader,
      security.readInitial crypto (.ofChunks chunks) = (.ok initial, rest) ∧
      initial.payload = first ∧
      initial.session.continuationReader = .ok (.v2 reader) ∧
      ∀ reads, later.length < reads →
        ∃ error, reader.readMsgs crypto.aead reads rest = (messages, some error))

section Exactness

variable {crypto : V2Crypto} {Context : Type*} {bytes : ℕ+}
  {security : ServerSecurity Context bytes}

theorem readsBack_acknowledged (aead : Aes256Gcm) (transcript : V2Transcript) :
    ReadsBack aead transcript transcript.acknowledged := by
  intro chunks hchunks reads hreads
  have hwrite : (transcript.writer.writeMsgs aead transcript.messages).1 =
      v2Frames aead transcript.material transcript.direction transcript.counter
        transcript.sent := by
    rw [V2Transcript.writer, V2MessageWriter.writeMsgs_eq transcript.counter_le
      transcript.fits]
    rfl
  rw [hwrite] at hchunks
  exact ⟨_, V2MessageReader.readMsgs_eq hchunks transcript.counter_le
    transcript.fits hreads⟩

/-- Every write succeeds exactly if every message is acknowledged. -/
theorem writeMsgs_isOk_iff (aead : Aes256Gcm) (transcript : V2Transcript) :
    (∃ writer, (transcript.writer.writeMsgs aead transcript.messages).2 =
        .ok writer) ↔ transcript.acknowledged = transcript.messages := by
  rw [V2Transcript.writer, V2MessageWriter.writeMsgs_eq transcript.counter_le
    transcript.fits, V2Transcript.acknowledged, List.take_eq_self_iff]
  have hcounter := transcript.counter_le
  split
  · exact ⟨fun _ => by omega, fun _ => ⟨_, rfl⟩⟩
  · exact ⟨fun ⟨_, h⟩ => (by cases h), fun _ => by omega⟩

theorem firstFlightReadsBack {keyId : KeyId} {key : AesKeyType} {salt : Salt}
    {first : List UInt8} {later : List (List UInt8)}
    (hpresents : Presents security keyId key salt)
    (hfirst : first.length ≤ maxInitialPlaintextLen)
    (hlater : ∀ message ∈ later, message.length + codecTagLen ≤ maxMsgLen) :
    FirstFlightReadsBack crypto security keyId key salt first later
      (later.take (u64Max - 1)) := by
  intro chunks hchunks
  have hbytes : (ByteStream.ofChunks chunks).bytes = _ := hchunks
  obtain ⟨rest, hrest, hread⟩ := ServerSecurity.readInitial_writeInitial hbytes
    hfirst hpresents.derived ⟨hpresents.notLate, hpresents.notEarly⟩
  constructor
  · intro error hevaluate
    rw [ClientHeaderSession.v2Material_newV2] at hevaluate
    rw [hevaluate] at hread
    exact ⟨rest, hread⟩
  · intro granted hevaluate
    rw [ClientHeaderSession.v2Material_newV2] at hevaluate
    rw [hevaluate] at hread
    have hone : 1 ≤ u64Max := by decide
    rw [ClientHeaderSession.continuationWriter,
      V2MessageWriter.writeMsgs_eq hone hlater] at hrest
    refine ⟨_, rest, _, hread, payload_of_evaluate_live hevaluate, rfl, ?_⟩
    intro reads hreads
    exact ⟨_, V2MessageReader.readMsgs_eq hrest hone hlater hreads⟩

/-- A reader reads exactly the messages its writer acknowledged, a server exactly
the first flight and the acknowledged messages behind it, which start at counter one;
and of any other stream neither yields more than a prefix of what was written. -/
theorem v2Framing_exact (crypto : V2Crypto)
    (security : ServerSecurity Context bytes) :
    (∀ transcript,
      ReadsBack crypto.aead transcript transcript.acknowledged ∧
      ((∃ writer,
        (transcript.writer.writeMsgs crypto.aead transcript.messages).2 =
          .ok writer) ↔ transcript.acknowledged = transcript.messages)) ∧
    (∀ keyId key salt first later,
      Presents security keyId key salt →
      first.length ≤ maxInitialPlaintextLen →
      (∀ message ∈ later, message.length + codecTagLen ≤ maxMsgLen) →
      FirstFlightReadsBack crypto security keyId key salt first later
        (later.take (u64Max - 1))) ∧
    (∀ sealings chunks,
      Unforged crypto.aead sealings.all chunks.flatten →
      (∀ transcript ∈ sealings.transcripts,
        YieldsPrefix crypto.aead transcript.reader (.ofChunks chunks)
          transcript.messages) ∧
      ServerYieldsPrefix crypto security sealings (.ofChunks chunks)) := by
  refine ⟨?_, ?_, ?_⟩
  · intro transcript
    exact ⟨readsBack_acknowledged _ _, writeMsgs_isOk_iff _ _⟩
  · intro keyId key salt first later hpresents hfirst hlater
    exact firstFlightReadsBack hpresents hfirst hlater
  · intro sealings chunks hunforged
    refine ⟨?_, serverYieldsPrefix hunforged⟩
    intro transcript htranscript
    have hdrop : YieldsPrefix crypto.aead transcript.reader (.ofChunks chunks)
        (transcript.messages.drop 0) :=
      yieldsPrefix_drop htranscript rfl rfl hunforged
    exact hdrop

end Exactness

/-! ## A duplicated frame -/

/-- The tag of a seal: its place among the registered ones. -/
def registeredTag (sealings : List Seal) (sealing : Seal) :
    Vector UInt8 codecTagLen :=
  .replicate codecTagLen
    (if sealing ∈ sealings then UInt8.ofNat (sealings.idxOf sealing) else 255)

/-- A stand-in that enciphers nothing and tells registered seals apart. -/
def registeredAead (sealings : List Seal) : Aes256Gcm where
  sealInPlace key nonce aad plain :=
    (plain, registeredTag sealings ⟨key, nonce, aad, plain⟩)
  openInPlace key nonce aad sealed :=
    let plain := sealed.take (sealed.length - codecTagLen)
    if sealed = plain ++ (registeredTag sealings ⟨key, nonce, aad, plain⟩).toList
    then some plain else none
  length_seal _ _ _ _ := rfl
  open_seal _ _ _ plain := by simp

theorem unforged_registered {sealings : List Seal} {bytes : List UInt8}
    (hclean : ¬List.replicate codecTagLen 255 <:+: bytes) :
    Unforged (registeredAead sealings) sealings bytes := by
  intro sealed hsealed key nonce aad plain hopen
  simp only [registeredAead, Option.ite_none_right_eq_some,
    Option.some.injEq] at hopen
  obtain ⟨htag, rfl⟩ := hopen
  by_contra hunregistered
  rw [registeredTag, if_neg hunregistered, Vector.toList_replicate] at htag
  exact hclean (List.IsInfix.trans ⟨_, [], by rw [← htag, List.append_nil]⟩
    hsealed)

/-- A credential, a salt drawn at second 900, and its directional keys. -/
def sampleMaterial : V2Material where
  keyId := .fromU64 7
  flags := 0
  salt := drawnSalt 900 #v[1, 2, 3, 4, 5, 6, 7, 8]
  clientToServer := .replicate 32 1
  serverToClient := .replicate 32 2

def sampleRequest : V2Transcript where
  material := sampleMaterial
  direction := .clientToServer
  counter := 0
  messages := [[10], [11]]
  counter_le := by decide
  fits := by decide

def sampleResponse : V2Transcript where
  material := sampleMaterial
  direction := .serverToClient
  counter := 0
  messages := [[20]]
  counter_le := by decide
  fits := by decide

def sampleSealings : Sealings where
  transcripts := [sampleRequest, sampleResponse]
  independent := by
    intro left hleft right hright hkey
    simp only [List.mem_cons, List.not_mem_nil, or_false] at hleft hright
    rcases hleft with rfl | rfl <;> rcases hright with rfl | rfl
    · rfl
    · exact absurd hkey (by decide)
    · exact absurd hkey (by decide)
    · rfl
  codec := []
  unbound := fun _ hmem => by cases hmem

def sampleCrypto : V2Crypto where
  sha256 input := Vector.ofFn fun index => input.getD index 0
  hkdf _ _ label := .replicate 32 (if label = "pb-mapper-v2-c2s" then 1 else 2)
  aead := registeredAead sampleSealings.all

/-- A server that knows the credential and admits its flight. -/
def sampleSecurity : ServerSecurity KeyId 4 where
  legacyProtocolAllowed := .ok false
  adminKey := .ok (.replicate 32 9)
  deriveKey _ := .ok (.replicate 32 7)
  derivePreviousKey _ := none
  authenticatePresented keyId _ := .ok keyId
  recordLegacyConnection := .ok ()
  replay := (ReplayWorld.fresh 4 defaultReplayWindowSeconds).guard
  log := (ReplayWorld.fresh 4 defaultReplayWindowSeconds).log
  now := 900
  evaluatedAt := 900
  io := .success
  compactIo := .success

/-- The first flight, its frame once more, then the next frame. -/
def duplicatedFlight : List (List UInt8) :=
  let frame := v2Frame sampleCrypto.aead sampleMaterial .clientToServer
  [firstPrefix sampleMaterial, frame 0 [10], frame 0 [10], frame 1 [11]]

theorem v2Framing_exact_duplicatedFlight :
    FirstFlightReadsBack sampleCrypto sampleSecurity (.fromU64 7)
        (.replicate 32 7) sampleMaterial.salt [10] [[11]] [[11]] ∧
      YieldsPrefix sampleCrypto.aead sampleRequest.reader
        (.ofChunks duplicatedFlight) sampleRequest.messages ∧
      ServerYieldsPrefix sampleCrypto sampleSecurity sampleSealings
        (.ofChunks duplicatedFlight) := by
  have hpresents : Presents sampleSecurity (.fromU64 7) (.replicate 32 7)
      sampleMaterial.salt := ⟨rfl, by decide +kernel, by decide +kernel⟩
  have hunforged : Unforged sampleCrypto.aead sampleSealings.all
      duplicatedFlight.flatten := unforged_registered (by decide +kernel)
  have hmem : sampleRequest ∈ sampleSealings.transcripts := List.mem_cons_self
  obtain ⟨-, hfirst, hstreams⟩ := v2Framing_exact sampleCrypto sampleSecurity
  obtain ⟨hreaders, hserver⟩ :=
    hstreams sampleSealings duplicatedFlight hunforged
  exact ⟨hfirst _ _ _ [10] [[11]] hpresents (by decide) (by decide),
    hreaders sampleRequest hmem, hserver⟩

/-- A frame with the last counter is written and then reported as failed, by its
reader as well. -/
theorem not_readsBack_last_counter :
    ¬∀ (aead : Aes256Gcm) (transcript : V2Transcript),
      ReadsBack aead transcript transcript.messages := by
  let last : V2Transcript :=
    ⟨sampleMaterial, .clientToServer, u64Max, [[]], le_rfl, by decide⟩
  intro hreads
  have hchunks : [(last.writer.writeMsgs .transparent last.messages).1].flatten =
      (last.writer.writeMsgs .transparent last.messages).1 := List.append_nil _
  obtain ⟨_, hall⟩ := hreads .transparent last _ hchunks 2 (by decide)
  obtain ⟨_, hnone⟩ := readsBack_acknowledged .transparent last _ hchunks 2
    (by decide)
  rw [hall] at hnone
  have hmessages : [[]] = last.acknowledged := congrArg Prod.fst hnone
  cases hmessages

end PbMapper.Protocol

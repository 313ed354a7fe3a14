import PbMapper.Protocol.V2Stream

/-!
# What a connection's writer puts on the wire is what its reader reads

The frames of consecutive messages, read back over any chunking, up to the last
message whose counter still advances.
-/

namespace PbMapper.Protocol

open Auth BigEndian PbMapper.Core MachineWord

/-! ## Reading one frame -/

section Frames

variable {expectedCounter plaintextLimit counter : ℕ} {ciphertext : List UInt8}
  {stream rest : ByteStream}

/-- What `read_v2_frame` returns stood behind its header in the stream. -/
theorem readV2Frame_ok
    (hread : readV2Frame expectedCounter plaintextLimit stream =
      (.ok (counter, ciphertext), rest)) :
    counter = expectedCounter ∧ counter ≤ u64Max ∧
      ciphertext.length ≤ u32Max ∧ codecTagLen ≤ ciphertext.length ∧
      ∃ header, header.length = 12 ∧
        stream.bytes = header ++ (ciphertext ++ rest.bytes) := by
  rw [readV2Frame] at hread
  rcases hfirst : stream.readExact 8 with ⟨_ | first, afterFirst⟩
  · simp [hfirst] at hread
  simp only [hfirst] at hread
  split at hread
  · simp at hread
  rename_i hcounter
  rcases hsecond : afterFirst.readExact 4 with ⟨_ | second, afterSecond⟩
  · simp [hsecond] at hread
  simp only [hsecond] at hread
  split at hread
  · simp at hread
  rename_i hdatalen
  rcases hbody : afterSecond.readExact (fromBeBytes second.toList) with
    ⟨_ | body, afterBody⟩
  · simp [hbody] at hread
  simp only [hbody, Prod.mk.injEq, Except.ok.injEq] at hread
  obtain ⟨⟨rfl, rfl⟩, rfl⟩ := hread
  have hcounterLt := fromBeBytes_lt first.toList
  have hdatalenLt := fromBeBytes_lt second.toList
  simp only [Vector.length_toList] at hcounterLt hdatalenLt
  refine ⟨not_not.mp hcounter, Nat.le_sub_one_of_lt hcounterLt, ?_, ?_,
    first.toList ++ second.toList, by simp, ?_⟩
  · rw [Vector.length_toList]
    exact Nat.le_sub_one_of_lt hdatalenLt
  · rw [Vector.length_toList]
    exact not_lt.mp fun hlt => hdatalen (.inl hlt)
  · rw [ByteStream.bytes_of_readExact hfirst,
      ByteStream.bytes_of_readExact hsecond,
      ByteStream.bytes_of_readExact hbody, List.append_assoc]

/-- A whole frame at the front of the stream is read. -/
theorem readV2Frame_append {tail : List UInt8}
    (hbytes : stream.bytes =
      toBeBytes 8 counter ++
        (toBeBytes 4 ciphertext.length ++ (ciphertext ++ tail)))
    (hcounter : counter ≤ u64Max) (htag : codecTagLen ≤ ciphertext.length)
    (hlimit : ciphertext.length ≤ satAdd u32Max plaintextLimit codecTagLen) :
    ∃ rest, readV2Frame counter plaintextLimit stream =
      (.ok (counter, ciphertext), rest) ∧ rest.bytes = tail := by
  have hword : ciphertext.length ≤ u32Max := hlimit.trans (min_le_right _ _)
  obtain ⟨first, afterFirst, hfirst, hfirstBytes, hafterFirst⟩ :=
    ByteStream.readExact_append hbytes (length_toBeBytes 8 counter)
  obtain ⟨second, afterSecond, hsecond, hsecondBytes, hafterSecond⟩ :=
    ByteStream.readExact_append hafterFirst (length_toBeBytes 4 _)
  have hcounterRead : fromBeBytes first.toList = counter := by
    rw [hfirstBytes]
    exact fromBeBytes_toBeBytes (Nat.lt_of_le_of_lt hcounter (by decide))
  have hdatalenRead : fromBeBytes second.toList = ciphertext.length := by
    rw [hsecondBytes]
    exact fromBeBytes_toBeBytes (Nat.lt_of_le_of_lt hword (by decide))
  obtain ⟨body, afterBody, hbody, hbodyBytes, hafterBody⟩ :=
    ByteStream.readExact_append hafterSecond hdatalenRead.symm
  refine ⟨afterBody, ?_, hafterBody⟩
  rw [readV2Frame]
  simp only [hfirst, hcounterRead, ne_eq, not_true_eq_false, if_false, hsecond]
  rw [if_neg (by omega), hbody]
  simp only [hbodyBytes]

/-- At the end of the stream there is no frame. -/
theorem readV2Frame_nil (hbytes : stream.bytes = []) :
    ∃ rest, readV2Frame expectedCounter plaintextLimit stream =
      (.error (protocolError
        "failed to read v2 counter: unexpected end of file"), rest) := by
  have hshort : stream.bytes.length < 8 := by simp [hbytes]
  obtain ⟨rest, hread, -⟩ := ByteStream.readExact_of_lt hshort
  exact ⟨rest, by rw [readV2Frame, hread]⟩

end Frames

/-! ## Reading one message -/

/-- The inputs of one use of the seal. -/
structure Seal where
  key : AesKeyType
  nonce : List UInt8
  aad : List UInt8
  plain : List UInt8
deriving DecidableEq

/-- Ciphertext and tag. -/
def Seal.output (aead : Aes256Gcm) (sealing : Seal) : List UInt8 :=
  let (ciphertext, tag) := aead.sealInPlace sealing.key sealing.nonce sealing.aad
    sealing.plain
  ciphertext ++ tag.toList

/-- The seal under which `write_msg` puts a message. -/
def messageSeal (material : V2Material) (direction : Direction) (counter : ℕ)
    (message : List UInt8) : Seal where
  key := directionKey material direction
  nonce := nonce counter
  aad := frameAad material direction counter (message.length + codecTagLen)
  plain := message

section Messages

variable {aead : Aes256Gcm} {material : V2Material} {direction : Direction}
  {counter plaintextLimit : ℕ} {message : List UInt8} {stream : ByteStream}

/-- The ciphertext and the tag of a frame. -/
def sealedMessage (aead : Aes256Gcm) (material : V2Material)
    (direction : Direction) (counter : ℕ) (message : List UInt8) : List UInt8 :=
  (messageSeal material direction counter message).output aead

@[simp]
theorem length_sealedMessage :
    (sealedMessage aead material direction counter message).length =
      message.length + codecTagLen := by
  simp [sealedMessage, Seal.output, aead.length_seal, messageSeal]

theorem v2Frame_eq :
    v2Frame aead material direction counter message =
      toBeBytes 8 counter ++
        (toBeBytes 4 (sealedMessage aead material direction counter
          message).length ++
          sealedMessage aead material direction counter message) := by
  rw [length_sealedMessage]
  rfl

theorem openInPlace_sealedMessage :
    aead.openInPlace (directionKey material direction) (nonce counter)
        (frameAad material direction counter
          (sealedMessage aead material direction counter message).length)
        (sealedMessage aead material direction counter message) =
      some message := by
  rw [length_sealedMessage]
  exact aead.open_seal _ _ _ _

theorem readV2Frame_v2Frame {tail : List UInt8}
    (hbytes : stream.bytes =
      v2Frame aead material direction counter message ++ tail)
    (hcounter : counter ≤ u64Max) (hlimit : message.length ≤ plaintextLimit)
    (hfits : message.length + codecTagLen ≤ maxMsgLen) :
    ∃ rest, readV2Frame counter plaintextLimit stream =
        (.ok (counter, sealedMessage aead material direction counter message),
          rest) ∧ rest.bytes = tail := by
  apply readV2Frame_append _ hcounter
  · rw [length_sealedMessage]
    omega
  · rw [length_sealedMessage]
    have hmax : maxMsgLen ≤ u32Max := by decide
    exact le_min (Nat.add_le_add_right hlimit _) (hfits.trans hmax)
  · rw [hbytes, v2Frame_eq, List.append_assoc, List.append_assoc]

theorem length_sealedMessage_le_u32Max
    (hfits : message.length + codecTagLen ≤ maxMsgLen) :
    ¬u32Max < (sealedMessage aead material direction counter message).length := by
  have hmax : maxMsgLen ≤ u32Max := by decide
  rw [length_sealedMessage]
  omega

/-- A reader that finds its writer's frame yields the message, unless the
counter is the last. -/
theorem V2MessageReader.readMsg_v2Frame {tail : List UInt8}
    (hbytes : stream.bytes =
      v2Frame aead material direction counter message ++ tail)
    (hcounter : counter ≤ u64Max)
    (hfits : message.length + codecTagLen ≤ maxMsgLen) :
    ∃ rest, V2MessageReader.readMsg aead ⟨material, direction, counter⟩ stream =
        (if counter = u64Max then
          .error (protocolError "protocol-v2 receive counter exhausted")
        else .ok (message, ⟨material, direction, counter + 1⟩), rest) ∧
      rest.bytes = tail := by
  have hlimit : message.length ≤ maxMsgLen - codecTagLen :=
    Nat.le_sub_of_add_le hfits
  obtain ⟨rest, hframe, hrest⟩ :=
    readV2Frame_v2Frame hbytes hcounter hlimit hfits
  refine ⟨rest, ?_, hrest⟩
  rw [readMsg, readMsgWithLimit, hframe]
  simp only [if_neg (length_sealedMessage_le_u32Max hfits),
    openInPlace_sealedMessage]
  split <;> rfl

end Messages

/-! ## Consecutive messages -/

/-- The frames of consecutive messages. -/
def v2Frames (aead : Aes256Gcm) (material : V2Material) (direction : Direction) :
    ℕ → List (List UInt8) → List UInt8
  | _, [] => []
  | counter, message :: messages =>
      v2Frame aead material direction counter message ++
        v2Frames aead material direction (counter + 1) messages

/-- What one writer is given to write in one direction of a session: messages of a
length it accepts. -/
structure V2Transcript where
  material : V2Material
  direction : Direction
  counter : ℕ
  messages : List (List UInt8)
  counter_le : counter ≤ u64Max
  fits : ∀ message ∈ messages, message.length + codecTagLen ≤ maxMsgLen

namespace V2Transcript

def writer (transcript : V2Transcript) : V2MessageWriter :=
  ⟨transcript.material, transcript.direction, transcript.counter⟩

def reader (transcript : V2Transcript) : V2MessageReader :=
  ⟨transcript.material, transcript.direction, transcript.counter⟩

/-- The messages that reach the wire: no write follows the one with the last
counter. -/
def sent (transcript : V2Transcript) : List (List UInt8) :=
  transcript.messages.take (u64Max + 1 - transcript.counter)

/-- The messages whose `write_msg` reports success: all before the last counter. -/
def acknowledged (transcript : V2Transcript) : List (List UInt8) :=
  transcript.messages.take (u64Max - transcript.counter)

end V2Transcript

section Consecutive

variable {aead : Aes256Gcm} {material : V2Material} {direction : Direction}
  {counter : ℕ} {messages : List (List UInt8)}

theorem V2MessageWriter.writeMsgs_eq (hcounter : counter ≤ u64Max)
    (hfits : ∀ message ∈ messages, message.length + codecTagLen ≤ maxMsgLen) :
    V2MessageWriter.writeMsgs aead ⟨material, direction, counter⟩ messages =
      (v2Frames aead material direction counter
          (messages.take (u64Max + 1 - counter)),
        if counter + messages.length ≤ u64Max then
          .ok ⟨material, direction, counter + messages.length⟩
        else .error (protocolError "protocol-v2 send counter exhausted")) := by
  induction messages generalizing counter with
  | nil =>
      rw [writeMsgs, List.take_nil, v2Frames, List.length_nil, Nat.add_zero,
        if_pos hcounter]
  | cons message messages ih =>
      have hwrite : V2MessageWriter.writeMsg aead ⟨material, direction, counter⟩
          message = (v2Frame aead material direction counter message,
            if counter = u64Max then
              .error (protocolError "protocol-v2 send counter exhausted")
            else .ok ⟨material, direction, counter + 1⟩) :=
        writeMsg_eq (hfits message List.mem_cons_self)
      rw [writeMsgs, hwrite, Nat.sub_add_comm hcounter, List.take_succ_cons, v2Frames,
        List.length_cons]
      by_cases hlast : counter = u64Max
      · rw [if_pos hlast, if_neg (by omega), hlast, Nat.sub_self, List.take_zero,
          v2Frames, List.append_nil]
      · have hnext : counter + 1 ≤ u64Max := Nat.lt_of_le_of_ne hcounter hlast
        have hlater := ih hnext
          fun later hlater => hfits later (List.mem_cons_of_mem _ hlater)
        rw [Nat.add_sub_add_right] at hlater
        rw [if_neg hlast]
        simp only [hlater]
        rw [Nat.add_assoc, Nat.add_comm 1]

/-- The reader yields the messages up to the last counter, then reports that the
stream has ended or that the counter is exhausted. -/
theorem V2MessageReader.readMsgs_eq {stream : ByteStream} {reads : ℕ}
    (hbytes : stream.bytes = v2Frames aead material direction counter
      (messages.take (u64Max + 1 - counter)))
    (hcounter : counter ≤ u64Max)
    (hfits : ∀ message ∈ messages, message.length + codecTagLen ≤ maxMsgLen)
    (hreads : messages.length < reads) :
    V2MessageReader.readMsgs aead reads ⟨material, direction, counter⟩ stream =
      (messages.take (u64Max - counter),
        some (protocolError
          (if counter + messages.length ≤ u64Max then
            "failed to read v2 counter: unexpected end of file"
          else "protocol-v2 receive counter exhausted"))) := by
  induction messages generalizing counter stream reads with
  | nil =>
      obtain ⟨reads, rfl⟩ := Nat.exists_eq_add_one.mpr hreads
      rw [List.take_nil] at hbytes
      obtain ⟨rest, hframe⟩ := readV2Frame_nil hbytes
      rw [readMsgs, readMsg, readMsgWithLimit, hframe]
      simp only [List.length_nil, Nat.add_zero, if_pos hcounter, List.take_nil]
  | cons message messages ih =>
      rw [List.length_cons] at hreads
      rw [Nat.sub_add_comm hcounter, List.take_succ_cons] at hbytes
      obtain ⟨reads, rfl⟩ := Nat.exists_eq_add_one.mpr (Nat.zero_lt_of_lt hreads)
      obtain ⟨rest, hread, hrest⟩ := readMsg_v2Frame hbytes hcounter
        (hfits message List.mem_cons_self)
      rw [readMsgs, hread, List.length_cons]
      by_cases hlast : counter = u64Max
      · rw [if_pos hlast, if_neg (by omega), hlast, Nat.sub_self, List.take_zero]
      · obtain ⟨left, hleft⟩ : ∃ left, u64Max - counter = left + 1 :=
          Nat.exists_eq_add_one.mpr (by omega)
        have hnext : u64Max + 1 - (counter + 1) = u64Max - counter :=
          Nat.add_sub_add_right ..
        rw [← hnext] at hrest
        have hlater := ih hrest (by omega)
          (fun later hlater => hfits later (List.mem_cons_of_mem _ hlater))
          (Nat.lt_of_succ_lt_succ hreads)
        rw [if_neg hlast]
        simp only [hlater]
        rw [hleft, List.take_succ_cons, Nat.add_assoc, Nat.add_comm 1,
          show u64Max - (counter + 1) = left by omega]

end Consecutive

/-! ## The prefix -/

section Prefix

variable {Context : Type*} {remainder : PrefixRemainder} {now : ℕ}

@[simp]
theorem length_firstPrefix (material : V2Material) :
    (firstPrefix material).length = 32 := by
  simp only [firstPrefix, protocolV2Magic, List.length_append, List.length_cons,
    List.length_nil, length_toBeBytes, Vector.length_toList]
  rfl

theorem toList_prefixSalt (remainder : PrefixRemainder) :
    (prefixSalt remainder).toList = remainder.toList.drop 12 := by
  apply List.ext_getElem
  · rw [Vector.length_toList, List.length_drop, Vector.length_toList]
    rfl
  · intro index hleft hright
    rw [List.getElem_drop, Vector.getElem_toList, Vector.getElem_toList]
    exact Vector.getElem_ofFn _

/-- Four bytes of version, flags and reserved bits, the key id, the salt. -/
private theorem toList_remainder {version flags high low : UInt8}
    (hhead : remainder.toList.take 4 = [version, flags, high, low]) :
    remainder.toList = [version, flags] ++ [high, low] ++
      (remainder.toList.drop 4).take 8 ++ (prefixSalt remainder).toList := by
  have htail : (remainder.toList.drop 4).drop 8 = remainder.toList.drop 12 :=
    List.drop_drop
  change _ = [version, flags, high, low] ++ _ ++ _
  rw [← hhead, toList_prefixSalt, ← htail, List.append_assoc]
  simp only [List.take_append_drop]

theorem fromBeBytes_pair_eq_zero {high low : UInt8} :
    fromBeBytes [high, low] = 0 ↔ [high, low] = toBeBytes 2 0 := by
  constructor
  · intro hzero
    have h := toBeBytes_fromBeBytes [high, low]
    rw [hzero] at h
    exact h.symm
  · intro h
    rw [h]
    rfl

/-- A remainder that passes the checks of `read_v2_initial` is the prefix of
every material with its key id and salt. -/
theorem firstPrefix_eq_iff {material : V2Material} (hflags : material.flags = 0)
    {version flags high low : UInt8}
    (hhead : remainder.toList.take 4 = [version, flags, high, low]) :
    firstPrefix material = protocolV2Magic ++ remainder.toList ↔
      (version = protocolV2Version ∧ flags = 0 ∧ fromBeBytes [high, low] = 0) ∧
      KeyId.fromU64 (fromBeBytes ((remainder.toList.drop 4).take 8)) =
          material.keyId ∧
      prefixSalt remainder = material.salt := by
  have hkey : (remainder.toList.drop 4).take 8 = toBeBytes 8 material.keyId.asU64 ↔
      KeyId.fromU64 (fromBeBytes ((remainder.toList.drop 4).take 8)) =
        material.keyId := by
    have hlength : ((remainder.toList.drop 4).take 8).length = 8 := by simp
    have hlt := fromBeBytes_lt ((remainder.toList.drop 4).take 8)
    rw [hlength] at hlt
    constructor
    · intro h
      apply KeyId.ext
      rw [h, fromBeBytes_toBeBytes (by exact material.keyId.lt)]
      exact Nat.mod_eq_of_lt material.keyId.lt
    · intro h
      rw [← h]
      have := toBeBytes_fromBeBytes ((remainder.toList.drop 4).take 8)
      rw [hlength] at this
      rw [KeyId.fromU64]
      simp only
      rw [Nat.mod_eq_of_lt (by exact hlt), this]
  rw [← hkey]
  nth_rewrite 1 [toList_remainder hhead]
  simp only [firstPrefix, hflags, List.append_assoc, List.append_cancel_left_eq]
  constructor
  · intro h
    obtain ⟨h01, h⟩ := List.append_inj h rfl
    obtain ⟨h23, h⟩ := List.append_inj h (by rfl)
    obtain ⟨hk, hs⟩ := List.append_inj h (by simp)
    simp only [List.cons.injEq] at h01
    refine ⟨⟨h01.1.symm, h01.2.1.symm, ?_⟩, hk.symm, (Vector.toList_inj.mp hs).symm⟩
    exact fromBeBytes_pair_eq_zero.mpr h23.symm
  · rintro ⟨⟨h0, h1, h23⟩, hk, hs⟩
    rw [h0, h1, fromBeBytes_pair_eq_zero.mp h23, hk, hs]

theorem readV2Prefix_eq_ok {material : V2Material} (hflags : material.flags = 0) :
    (readV2Prefix remainder now :
      Except (ServerInitialError Context) (KeyId × Salt)) =
        .ok (material.keyId, material.salt) ↔
    firstPrefix material = protocolV2Magic ++ remainder.toList ∧
    now ≤ saltTimestamp material.salt + maxConnectionClockSkewSeconds ∧
      saltTimestamp material.salt ≤ now + maxConnectionClockSkewSeconds := by
  have hhead : remainder.toList.take 4 =
      [remainder[0], remainder[1], remainder[2], remainder[3]] := by
    apply List.ext_getElem
    · simp
    · intro index hleft hright
      rw [List.getElem_take, Vector.getElem_toList]
      rcases index with _ | _ | _ | _ | index
      · rfl
      · rfl
      · rfl
      · rfl
      · exact absurd hright (Nat.not_lt.mpr (Nat.le_add_left _ _))
  rw [firstPrefix_eq_iff hflags hhead, readV2Prefix]
  dsimp only
  split
  · rename_i hheader
    constructor
    · intro h
      cases h
    · rintro ⟨⟨⟨hversion, hzero, hreserved⟩, -⟩, -⟩
      simp [hversion, hzero, hreserved] at hheader
  rename_i hheader
  rw [not_or, not_or, not_not, not_not, not_not] at hheader
  split
  · rename_i hskew
    constructor
    · intro h
      cases h
    · rintro ⟨⟨-, -, hsalt⟩, hbounds⟩
      rw [hsalt] at hskew
      omega
  · rename_i hskew
    simp only [Except.ok.injEq, Prod.mk.injEq]
    constructor
    · rintro ⟨hkeyId, hsalt⟩
      rw [hsalt] at hskew
      exact ⟨⟨hheader, hkeyId, hsalt⟩, by omega⟩
    · rintro ⟨⟨-, hkeyId, hsalt⟩, -⟩
      exact ⟨hkeyId, hsalt⟩

end Prefix

/-! ## The first flight -/

section FirstFlight

variable {crypto : V2Crypto} {Context : Type*} {bytes : ℕ+}
  {security : ServerSecurity Context bytes} {keyId : KeyId} {key : AesKeyType}
  {salt : Salt} {message : List UInt8}

/-- The server opens the client's frame zero. -/
theorem firstFlightWork_sealedMessage (previousKey : Option AesKeyType)
    (authenticated : Except AuthFailure Context)
    (hfits : message.length + codecTagLen ≤ maxMsgLen) :
    firstFlightWork crypto keyId salt
        ⟨.ok key,
          .ok (0, sealedMessage crypto.aead (deriveMaterial crypto keyId key salt)
            .clientToServer 0 message),
          previousKey, authenticated⟩ =
      .ok (.live message (sessionWithoutContext
        (v2Session key (deriveMaterial crypto keyId key salt)))) := by
  have hopen : openV2Payload crypto (deriveMaterial crypto keyId key salt)
      .clientToServer 0
      (sealedMessage crypto.aead (deriveMaterial crypto keyId key salt)
        .clientToServer 0 message) = .ok message := by
    rw [openV2Payload, if_neg (length_sealedMessage_le_u32Max hfits),
      openInPlace_sealedMessage]
  rw [firstFlightWork]
  simp only [hopen]

/-- A granted flight is granted with the message it carried. -/
theorem payload_of_evaluate_live {payload : List UInt8} {context : Context}
    {errorSession : ServerHeaderSession Context}
    (hgranted : security.evaluate crypto keyId key salt
      (.live message errorSession) = .ok (payload, context)) :
    payload = message := by
  rw [ServerSecurity.evaluate, evaluateFirstFlight.eq_def] at hgranted
  cases hauth : security.authenticatePresented keyId key with
  | error failure => simp [hauth] at hgranted
  | ok admitted =>
      rw [hauth] at hgranted
      rcases hadmits : security.replay.admitFresh security.log keyId
        (replayFingerprint crypto keyId salt) security.evaluatedAt security.io
        security.compactIo with ⟨_ | _ | _ | _, replay, log⟩ <;>
        simp only [hadmits, Except.ok.injEq, Prod.mk.injEq, reduceCtorEq]
          at hgranted
      exact hgranted.1.symm

/-- The first flight a client wrote is read as its message, with a session of
the client's material, if the evaluation grants it; what the client wrote behind
it stays unread. -/
theorem ServerSecurity.readInitial_writeInitial {stream : ByteStream}
    {tail : List UInt8}
    (hbytes : stream.bytes =
      ((ClientHeaderSession.newV2 crypto keyId key salt).writeInitial crypto
        message).1 ++ tail)
    (hlimit : message.length ≤ maxInitialPlaintextLen)
    (hderive : security.deriveKey keyId = .ok key)
    (hclock :
      security.now ≤ saltTimestamp salt + maxConnectionClockSkewSeconds ∧
      saltTimestamp salt ≤ security.now + maxConnectionClockSkewSeconds) :
    ∃ rest, rest.bytes = tail ∧
      security.readInitial crypto stream =
        ((security.evaluate crypto keyId key salt (.live message
          (sessionWithoutContext
            (v2Session key (deriveMaterial crypto keyId key salt))))).map
          fun granted =>
            { payload := granted.1
              session := ⟨.v2, key, some (deriveMaterial crypto keyId key salt),
                some granted.2⟩
              replayFingerprint := some (replayFingerprint crypto keyId salt)
              clientTimestamp := some (saltTimestamp salt) },
          rest) := by
  let material := deriveMaterial crypto keyId key salt
  have hfits : message.length + codecTagLen ≤ maxMsgLen := by
    have hmax : maxInitialPlaintextLen + codecTagLen ≤ maxMsgLen := by decide
    omega
  have hwrite : ((ClientHeaderSession.newV2 crypto keyId key salt).writeInitial
      crypto message).1 = firstPrefix material ++
        v2Frame crypto.aead material .clientToServer 0 message := by
    rw [ClientHeaderSession.writeInitial, V2MessageWriter.writeMsg_eq hfits]
    rfl
  have hmagicLength : protocolV2Magic.length = 4 := rfl
  have hmagic : (firstPrefix material).take 4 = protocolV2Magic := rfl
  have hsplit : stream.bytes = protocolV2Magic ++
      ((firstPrefix material).drop 4 ++
        (v2Frame crypto.aead material .clientToServer 0 message ++ tail)) := by
    rw [hbytes, hwrite, ← hmagic, ← List.append_assoc, List.take_append_drop,
      List.append_assoc]
  obtain ⟨first, afterMagic, hfirst, hfirstBytes, hafterMagic⟩ :=
    ByteStream.readExact_append hsplit hmagicLength
  have hlength : ((firstPrefix material).drop 4).length = 28 := by
    rw [List.length_drop, length_firstPrefix]
  obtain ⟨remainder, afterPrefix, hremainder, hremainderBytes, hafterPrefix⟩ :=
    ByteStream.readExact_append hafterMagic hlength
  have hstarts : firstPrefix material =
      protocolV2Magic ++ remainder.toList := by
    rw [hremainderBytes, ← hmagic, List.take_append_drop]
  have hread : (readV2Prefix remainder security.now :
      Except (ServerInitialError Context) (KeyId × Salt)) = .ok (keyId, salt) :=
    (readV2Prefix_eq_ok rfl).mpr ⟨hstarts, hclock⟩
  obtain ⟨rest, hframe, hrest⟩ := readV2Frame_v2Frame hafterPrefix
    (Nat.zero_le _) hlimit hfits
  refine ⟨rest, hrest, ?_⟩
  rw [readInitial, hfirst]
  simp only
  rw [if_pos hfirstBytes, readV2Initial, hremainder]
  simp only [hread, hderive, hframe]
  rw [firstFlightWork_sealedMessage _ _ hfits]
  simp only
  cases security.evaluate crypto keyId key salt (.live message
    (sessionWithoutContext
      (v2Session key (deriveMaterial crypto keyId key salt)))) <;> rfl

end FirstFlight

end PbMapper.Protocol

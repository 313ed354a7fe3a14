import PbMapper.Protocol.Frame
import PbMapper.Protocol.MessageCodec

/-!
# Protocol-v2 messages

The writer and the reader of the frames behind the first flight: counter, length
and ciphertext.  A read takes the bytes of a frame as they arrive, so what it
does depends only on the bytes it has taken so far.
-/

namespace PbMapper.Protocol

open BigEndian PbMapper.Core MachineWord

def protocolError (detail : String) : String := s!"protocol-v2 error: {detail}"

structure V2MessageWriter where
  material : V2Material
  direction : Direction
  counter : ℕ

structure V2MessageReader where
  material : V2Material
  direction : Direction
  expectedCounter : ℕ

variable (aead : Aes256Gcm)

/-- Counter, length, and the message sealed under both. -/
def v2Frame (material : V2Material) (direction : Direction) (counter : ℕ)
    (message : List UInt8) : List UInt8 :=
  let datalen := message.length + codecTagLen
  let (ciphertext, tag) := aead.sealInPlace (directionKey material direction)
    (nonce counter) (frameAad material direction counter datalen) message
  toBeBytes 8 counter ++ (toBeBytes 4 datalen ++ (ciphertext ++ tag.toList))

/-- The bytes `write_msg` puts on the wire, and its outcome. -/
def V2MessageWriter.writeMsg (writer : V2MessageWriter) (message : List UInt8) :
    List UInt8 × Except String V2MessageWriter :=
  let encryptedLen := message.length + codecTagLen
  if u32Max < encryptedLen then
    ([], .error (protocolError "protocol-v2 message is too large"))
  else if maxMsgLen < encryptedLen then
    ([], .error (protocolError "protocol-v2 message exceeds the maximum length"))
  else
    (v2Frame aead writer.material writer.direction writer.counter message,
      if writer.counter = u64Max then
        .error (protocolError "protocol-v2 send counter exhausted")
      else .ok { writer with counter := writer.counter + 1 })

/-- What a poll of `read_msg` comes to. -/
inductive V2Read where
  | pending
  | message (plain : List UInt8) (reader : V2MessageReader) (rest : List UInt8)
  | failed (error : String) (rest : List UInt8)

/-- `read_v2_frame` and the opening of its frame, given the bytes the read has
taken and those that have arrived after them. -/
def V2MessageReader.poll (reader : V2MessageReader) (bytes : List UInt8)
    (ended : Bool) : V2Read :=
  if bytes.length < 8 then
    if ended then
      .failed (protocolError "failed to read v2 counter: unexpected end of file") []
    else .pending
  else
    let counter := fromBeBytes (bytes.take 8)
    if counter ≠ reader.expectedCounter then
      .failed (protocolError ("protocol-v2 counter mismatch: expected " ++
        s!"{reader.expectedCounter}, got {counter}")) (bytes.drop 8)
    else if bytes.length < 12 then
      if ended then
        .failed (protocolError "failed to read v2 length: unexpected end of file")
          []
      else .pending
    else
      let datalen := fromBeBytes ((bytes.drop 8).take 4)
      if datalen < codecTagLen ∨ maxMsgLen < datalen then
        .failed (protocolError (s!"protocol-v2 payload length {datalen} exceeds " ++
          s!"the {maxMsgLen - codecTagLen}-byte limit")) (bytes.drop 12)
      else if bytes.length < 12 + datalen then
        if ended then
          .failed (protocolError "failed to read v2 payload: early eof") []
        else .pending
      else
        let rest := bytes.drop (12 + datalen)
        match aead.openInPlace (directionKey reader.material reader.direction)
            (nonce counter)
            (frameAad reader.material reader.direction counter datalen)
            ((bytes.drop 12).take datalen) with
        | none =>
            .failed (protocolError "protocol-v2 payload authentication failed")
              rest
        | some plain =>
            if reader.expectedCounter = u64Max then
              .failed (protocolError "protocol-v2 receive counter exhausted") rest
            else
              .message plain
                { reader with expectedCounter := reader.expectedCounter + 1 } rest

section Frames

variable {aead} {material : V2Material} {direction : Direction} {counter : ℕ}
  {message : List UInt8}

@[simp]
theorem length_v2Frame :
    (v2Frame aead material direction counter message).length =
      12 + (message.length + codecTagLen) := by
  simp only [v2Frame, List.length_append, length_toBeBytes, aead.length_seal,
    Vector.length_toList]
  omega

/-- `write_msg` puts one frame on the wire or nothing. -/
theorem V2MessageWriter.writeMsg_eq {writer : V2MessageWriter}
    (hfits : message.length + codecTagLen ≤ maxMsgLen) :
    writer.writeMsg aead message =
      (v2Frame aead writer.material writer.direction writer.counter message,
        if writer.counter = u64Max then
          .error (protocolError "protocol-v2 send counter exhausted")
        else .ok { writer with counter := writer.counter + 1 }) := by
  have hword : message.length + codecTagLen ≤ u32Max :=
    hfits.trans (by decide)
  rw [writeMsg, if_neg (not_lt.mpr hword), if_neg (not_lt.mpr hfits)]

theorem V2MessageWriter.writeMsg_too_large {writer : V2MessageWriter}
    (hlarge : ¬message.length + codecTagLen ≤ maxMsgLen) :
    ∃ error, writer.writeMsg aead message = ([], .error error) := by
  rw [writeMsg]
  split
  · exact ⟨_, rfl⟩
  · rw [if_pos (not_le.mp hlarge)]
    exact ⟨_, rfl⟩

/-- The header of a frame is found in every part of the wire that holds it. -/
theorem v2Frame_counter (rest : List UInt8) {available : ℕ}
    (hcounter : counter ≤ u64Max) (havailable : 8 ≤ available) :
    fromBeBytes (((v2Frame aead material direction counter message ++ rest).take
      available).take 8) = counter := by
  have hlt : counter < 256 ^ 8 := Nat.lt_of_le_of_lt hcounter (by decide)
  rw [List.take_take, min_eq_left havailable]
  simp only [v2Frame, List.append_assoc]
  rw [List.take_left' (length_toBeBytes _ _), fromBeBytes_toBeBytes hlt]

theorem v2Frame_datalen (rest : List UInt8) {available : ℕ}
    (hfits : message.length + codecTagLen ≤ maxMsgLen)
    (havailable : 12 ≤ available) :
    fromBeBytes ((((v2Frame aead material direction counter message ++
      rest).take available).drop 8).take 4) = message.length + codecTagLen := by
  have hlt : message.length + codecTagLen < 256 ^ 4 :=
    hfits.trans_lt (by decide)
  rw [List.drop_take, List.take_take, min_eq_left (by omega)]
  simp only [v2Frame, List.append_assoc]
  rw [List.drop_left' (length_toBeBytes _ _),
    List.take_left' (length_toBeBytes _ _), fromBeBytes_toBeBytes hlt]

theorem v2Frame_body (rest : List UInt8) {available : ℕ}
    (havailable :
      (v2Frame aead material direction counter message).length ≤ available) :
    ((((v2Frame aead material direction counter message ++ rest).take
        available).drop 12).take (message.length + codecTagLen)) =
      (aead.sealInPlace (directionKey material direction) (nonce counter)
          (frameAad material direction counter (message.length + codecTagLen))
          message).1 ++
        (aead.sealInPlace (directionKey material direction) (nonce counter)
          (frameAad material direction counter (message.length + codecTagLen))
          message).2.toList := by
  rw [length_v2Frame] at havailable
  rw [List.drop_take, List.take_take, min_eq_left (by omega)]
  simp only [v2Frame]
  rw [← List.append_assoc (toBeBytes 8 _), List.append_assoc,
    List.drop_left' (by simp)]
  exact List.take_left' (by simp [aead.length_seal])

/-- A read that has not got a whole frame waits. -/
theorem V2MessageReader.poll_short (rest : List UInt8) {available : ℕ}
    (hcounter : counter ≤ u64Max)
    (hfits : message.length + codecTagLen ≤ maxMsgLen)
    (hshort : available <
      (v2Frame aead material direction counter message).length) :
    V2MessageReader.poll aead ⟨material, direction, counter⟩
        ((v2Frame aead material direction counter message ++ rest).take
          available) false = .pending := by
  have hlength : ((v2Frame aead material direction counter message ++
      rest).take available).length = available := by
    rw [List.length_take, List.length_append]
    omega
  rw [length_v2Frame] at hshort
  rw [poll, hlength]
  split
  · rfl
  · rename_i hcounterRead
    simp only [v2Frame_counter rest hcounter (not_lt.mp hcounterRead), ne_eq,
      not_true_eq_false, if_false]
    split
    · rfl
    · rename_i hlengthRead
      simp only [v2Frame_datalen rest hfits (not_lt.mp hlengthRead)]
      rw [if_neg (by omega), if_pos hshort, if_neg Bool.false_ne_true]

/-- A read that has got a whole frame yields its message, unless its counter is
the last. -/
theorem V2MessageReader.poll_frame (rest : List UInt8) (ended : Bool)
    {available : ℕ} (hcounter : counter ≤ u64Max)
    (hfits : message.length + codecTagLen ≤ maxMsgLen)
    (hlong : (v2Frame aead material direction counter message).length ≤
      available) :
    V2MessageReader.poll aead ⟨material, direction, counter⟩
        ((v2Frame aead material direction counter message ++ rest).take
          available) ended =
      if counter = u64Max then
        .failed (protocolError "protocol-v2 receive counter exhausted")
          (rest.take (available -
            (v2Frame aead material direction counter message).length))
      else
        .message message ⟨material, direction, counter + 1⟩
          (rest.take (available -
            (v2Frame aead material direction counter message).length)) := by
  have hbody := v2Frame_body rest hlong
  have hlength : (v2Frame aead material direction counter message).length ≤
      ((v2Frame aead material direction counter message ++ rest).take
        available).length := by
    rw [List.length_take, List.length_append]
    omega
  have hrest : ((v2Frame aead material direction counter message ++ rest).take
      available).drop (12 + (message.length + codecTagLen)) =
      rest.take (available -
        (v2Frame aead material direction counter message).length) := by
    have hlength : (v2Frame aead material direction counter message).length =
        12 + (message.length + codecTagLen) := length_v2Frame
    rw [List.drop_take, ← hlength, List.drop_left]
  rw [length_v2Frame] at hlength hlong
  have hheader : 12 ≤ available := by omega
  have hcounterRead : fromBeBytes
      (((v2Frame aead material direction counter message ++ rest).take
        available).take 8) = counter :=
    v2Frame_counter rest hcounter (by omega)
  have hdatalenRead : fromBeBytes
      ((((v2Frame aead material direction counter message ++ rest).take
        available).drop 8).take 4) = message.length + codecTagLen :=
    v2Frame_datalen rest hfits hheader
  rw [poll, if_neg (by omega)]
  simp only [hcounterRead, hdatalenRead, ne_eq, not_true_eq_false, if_false]
  rw [if_neg (by omega), if_neg (by omega), if_neg (by omega), hbody,
    aead.open_seal, hrest]

end Frames

end PbMapper.Protocol

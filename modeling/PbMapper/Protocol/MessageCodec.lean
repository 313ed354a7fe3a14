import PbMapper.Core.Codec
import PbMapper.Protocol.ForwardDelivery
import Mathlib.Logic.Function.Iterate

/-!
# Plain and encrypted forwarding

The two kinds of readers and writers `start_forward` is used with.  The plain
ones pass bytes through a buffer that grows and shrinks; the encrypted ones
exchange frames of a checksum, a length and an authenticated ciphertext.  Both
are shown to be lawful connections; they differ in how they report the end of a
stream.
-/

namespace PbMapper.Protocol

open BigEndian PbMapper.Core

/-! ## Buffers -/

def initBufSize : ℕ := 8 * 1024

def maxBufSize : ℕ := 8 * 1024 * 1024

/-- A read buffer, reduced to its size and the size it wants next. -/
structure CommonBuffer where
  length : ℕ
  needSize : ℕ
  length_pos : 0 < length
  length_le : length ≤ maxBufSize
  needSize_pos : 0 < needSize

namespace CommonBuffer

def new : CommonBuffer :=
  ⟨initBufSize, initBufSize, by decide, by decide, by decide⟩

def dynResize (buffer : CommonBuffer) : CommonBuffer where
  length := min buffer.needSize maxBufSize
  needSize := min buffer.needSize maxBufSize
  length_pos := lt_min buffer.needSize_pos (by decide)
  length_le := min_le_right _ _
  needSize_pos := lt_min buffer.needSize_pos (by decide)

def updateNeedSize (buffer : CommonBuffer) (read : ℕ) : CommonBuffer where
  length := buffer.length
  needSize :=
    if read = buffer.length then read * 2
    else if read ≠ 0 ∧ read < initBufSize ∧ initBufSize < buffer.needSize then
      initBufSize
    else buffer.needSize
  length_pos := buffer.length_pos
  length_le := buffer.length_le
  needSize_pos := by
    have := buffer.length_pos
    have := buffer.needSize_pos
    split
    · omega
    split
    · decide
    · assumption

end CommonBuffer

/-! ## The plain reader and writer -/

structure NormalForwardReader where
  buffer : CommonBuffer

/-- The buffer a read finds after its resize. -/
def NormalForwardReader.resized (reader : NormalForwardReader) : CommonBuffer :=
  if reader.buffer.length ≠ reader.buffer.needSize then reader.buffer.dynResize
  else reader.buffer

def NormalForwardReader.read (reader : NormalForwardReader)
    (available : List UInt8) (ended : Bool) :
    ReadOutcome NormalForwardReader :=
  let buffer := reader.resized
  if available.length = 0 ∧ ended = false then .pending ⟨buffer⟩
  else
    let n := min available.length buffer.length
    .chunk (available.take n) n ⟨buffer.updateNeedSize n⟩

instance : ForwardReader NormalForwardReader := ⟨NormalForwardReader.read⟩

structure NormalForwardWriter where

instance : ForwardWriter NormalForwardWriter :=
  ⟨fun writer bytes => .ok (bytes, writer)⟩

def normalEnd : Endpoint NormalForwardReader NormalForwardWriter :=
  ⟨⟨.new⟩, ⟨⟩⟩

/-- A plain connection means what it carries. -/
def normalLink : LawfulLink normalEnd where
  Carries _ _ wire plain := wire = plain
  endFails := false
  carries_init := rfl
  write_carries := by
    rintro writer reader wire plain message rfl -
    exact ⟨message, writer, rfl, rfl⟩
  read_carries := by
    rintro writer reader wire plain available ended rfl hwire hended
    by_cases havailable : available = 0
    · subst havailable
      have hlength : 0 < wire.length := List.length_pos_iff.mpr hwire
      have hfalse : ended = false := by
        by_contra htrue
        have := hended (by simpa using htrue)
        omega
      exact .inl ⟨hlength, ⟨reader.resized⟩, if_pos ⟨rfl, hfalse⟩, rfl⟩
    · right
      have hlength : 0 < (wire.take available).length := by
        rw [List.length_take]
        have := List.length_pos_iff.mpr hwire
        omega
      let buffer := reader.resized
      let n := min (wire.take available).length buffer.length
      have hpositive : 0 < n := lt_min hlength buffer.length_pos
      have hshort : n ≤ (wire.take available).length := min_le_left _ _
      have htake : (wire.take available).take n = wire.take n := by
        rw [List.take_take, min_eq_left]
        exact hshort.trans (List.length_take_le _ _)
      refine ⟨wire.take n, n, ⟨buffer.updateNeedSize n⟩, wire.drop n, ?_, ?_,
        hpositive, ?_, (List.take_append_drop n wire).symm, rfl⟩
      · rw [← htake]
        exact if_neg (by omega)
      · have hle : n ≤ maxBufSize := (min_le_right _ _).trans buffer.length_le
        have hmin := List.length_take_le' (l := wire) available
        rw [MessageFits, List.length_take]
        simp only [maxPlaintextLen, maxBufSize] at hle ⊢
        omega
      · exact hshort.trans (List.length_take_le' _ _)
  read_idle := by
    rintro writer reader plain rfl
    have hread : NormalForwardReader.read reader [] false =
        .pending ⟨reader.resized⟩ := by
      simp [NormalForwardReader.read]
    exact ⟨_, hread, rfl⟩
  read_end := by
    rintro writer reader plain rfl
    exact ⟨rfl, _, rfl, rfl⟩

/-! ## Frames -/

/-- Maximum value of `datalen`: the largest plaintext and its tag. -/
def maxMsgLen : ℕ := maxPlaintextLen + codecTagLen

/-- A reader of encrypted frames; `checksumKey` is the key of
`with_checksum_key`. -/
structure CodecForwardReader (aead : Aes256Gcm) where
  decryptor : Aes256GcmDeCodec
  checksumKey : AesKeyType

structure CodecForwardWriter (aead : Aes256Gcm) where
  encryptor : Aes256GcmEnCodec
  checksumKey : AesKeyType

variable {aead : Aes256Gcm}

/-- `get_msg_len`, the body, and its decryption; every partial read waits, and
an end of stream inside or before a frame is an error. -/
def CodecForwardReader.read (reader : CodecForwardReader aead)
    (available : List UInt8) (ended : Bool) :
    ReadOutcome (CodecForwardReader aead) :=
  if available.length < 4 then
    if ended then .failed .msgNetworkReadCheckSum else .pending reader
  else if available.length < 8 then
    if ended then .failed .msgNetworkReadDatalen else .pending reader
  else
    let checksum := fromBeBytes (available.take 4)
    let datalen := fromBeBytes ((available.drop 4).take 4)
    if !validChecksumForKey datalen checksum reader.checksumKey then
      .failed (.msgDatalenValidate datalen checksum)
    else if maxMsgLen < datalen then
      .failed (.msgDatalenExceeded datalen maxMsgLen)
    else if available.length < 8 + datalen then
      if ended then .failed .msgNetworkReadBody else .pending reader
    else
      match reader.decryptor.decrypt aead ((available.drop 8).take datalen) with
      | (none, _) =>
          .failed (.msgCodec "decrypt"
            "got ring::error::Unspecified when we read msg")
      | (some plain, decryptor) =>
          .chunk plain (8 + datalen) { reader with decryptor := decryptor }

instance : ForwardReader (CodecForwardReader aead) := ⟨CodecForwardReader.read⟩

def CodecForwardWriter.write (writer : CodecForwardWriter aead)
    (message : List UInt8) :
    Except Error (List UInt8 × CodecForwardWriter aead) :=
  let ((ciphertext, tag), encryptor) := writer.encryptor.encrypt aead message
  let msgLen := (ciphertext.length + tag.toList.length) % 2 ^ 32
  .ok (toBeBytes 4 (getChecksumForKey msgLen writer.checksumKey) ++
      toBeBytes 4 msgLen ++ ciphertext ++ tag.toList,
    { writer with encryptor := encryptor })

instance : ForwardWriter (CodecForwardWriter aead) := ⟨CodecForwardWriter.write⟩

/-- Both ends of a tunnel share the session key and the framing key. -/
def codecEnd (aead : Aes256Gcm) (key framingKey : AesKeyType) :
    Endpoint (CodecForwardReader aead) (CodecForwardWriter aead) :=
  ⟨⟨⟨key, 0⟩, framingKey⟩, ⟨⟨key, 0⟩, framingKey⟩⟩

section Frames

variable (aead) (key framingKey : AesKeyType)

/-- The sealed body of the frame with this counter. -/
def sealedBody (counter : ℕ) (message : List UInt8) : List UInt8 :=
  let sealed := aead.sealInPlace key (counterNonce counter) [] message
  sealed.1 ++ sealed.2.toList

def frame (counter : ℕ) (message : List UInt8) : List UInt8 :=
  let datalen := message.length + codecTagLen
  toBeBytes 4 (getChecksumForKey datalen framingKey) ++
    (toBeBytes 4 datalen ++ sealedBody aead key counter message)

/-- The frames of consecutive messages. -/
def frames : ℕ → List (List UInt8) → List UInt8
  | _, [] => []
  | counter, message :: messages =>
      frame aead key framingKey counter message ++
        frames (advanceCounter counter) messages

variable {aead key framingKey} {counter : ℕ} {message : List UInt8}

@[simp]
theorem length_sealedBody :
    (sealedBody aead key counter message).length =
      message.length + codecTagLen := by
  simp [sealedBody, aead.length_seal]

@[simp]
theorem length_frame :
    (frame aead key framingKey counter message).length =
      8 + (message.length + codecTagLen) := by
  simp only [frame, List.length_append, length_toBeBytes, length_sealedBody]
  omega

theorem frames_append (messages : List (List UInt8)) :
    frames aead key framingKey counter (messages ++ [message]) =
      frames aead key framingKey counter messages ++
        frame aead key framingKey (advanceCounter^[messages.length] counter)
          message := by
  induction messages generalizing counter with
  | nil => simp [frames]
  | cons head messages ih =>
      rw [List.cons_append, frames, frames, ih, List.append_assoc]
      rfl

/-- The writer puts exactly one frame on the wire. -/
theorem write_eq (hfits : MessageFits message) :
    CodecForwardWriter.write
        (⟨⟨key, counter⟩, framingKey⟩ : CodecForwardWriter aead) message =
      .ok (frame aead key framingKey counter message,
        ⟨⟨key, advanceCounter counter⟩, framingKey⟩) := by
  have hlength : message.length + codecTagLen < 2 ^ 32 := by
    have := hfits.2
    simp only [maxPlaintextLen, codecTagLen] at this ⊢
    omega
  simp only [CodecForwardWriter.write, Aes256GcmEnCodec.encrypt,
    aead.length_seal, Vector.length_toList, Nat.mod_eq_of_lt hlength, frame,
    sealedBody, List.append_assoc]

/-- The header of a frame is found in every part of the wire that holds it. -/
theorem frame_header (aead : Aes256Gcm) (key framingKey : AesKeyType)
    (counter : ℕ) (message rest : List UInt8) {available : ℕ}
    (hheader : 8 ≤ available) :
    let arrived :=
      (frame aead key framingKey counter message ++ rest).take available
    arrived.take 4 =
        toBeBytes 4 (getChecksumForKey (message.length + codecTagLen) framingKey) ∧
      (arrived.drop 4).take 4 = toBeBytes 4 (message.length + codecTagLen) := by
  simp only [frame, List.append_assoc]
  constructor
  · rw [List.take_take, min_eq_left (by omega)]
    exact List.take_left' (length_toBeBytes _ _)
  · rw [List.drop_take, List.drop_left' (length_toBeBytes _ _), List.take_take,
      min_eq_left (by omega)]
    exact List.take_left' (length_toBeBytes _ _)

/-- The reader accepts the header of every frame a forwarder writes. -/
theorem header_valid (framingKey : AesKeyType) (hfits : MessageFits message) :
    fromBeBytes (toBeBytes 4
        (getChecksumForKey (message.length + codecTagLen) framingKey)) =
        getChecksumForKey (message.length + codecTagLen) framingKey ∧
      fromBeBytes (toBeBytes 4 (message.length + codecTagLen)) =
        message.length + codecTagLen ∧
      message.length + codecTagLen ≤ maxMsgLen := by
  have hle : message.length + codecTagLen ≤ maxMsgLen :=
    Nat.add_le_add_right hfits.2 _
  have hlt : message.length + codecTagLen < 2 ^ 32 :=
    hle.trans_lt (by decide)
  exact ⟨fromBeBytes_toBeBytes (getChecksumForKey_lt framingKey hlt),
    fromBeBytes_toBeBytes hlt, hle⟩

/-- A reader that has not got a whole frame yet waits. -/
theorem read_frame_short (rest : List UInt8) {available : ℕ}
    (hfits : MessageFits message)
    (hshort : available < (frame aead key framingKey counter message).length) :
    CodecForwardReader.read
        (⟨⟨key, counter⟩, framingKey⟩ : CodecForwardReader aead)
        ((frame aead key framingKey counter message ++ rest).take available)
        false =
      .pending ⟨⟨key, counter⟩, framingKey⟩ := by
  have hlength : ((frame aead key framingKey counter message ++ rest).take
      available).length = available := by
    rw [List.length_take, List.length_append]
    omega
  rw [length_frame] at hshort
  unfold CodecForwardReader.read
  rw [hlength]
  split
  · rfl
  split
  · rfl
  · rename_i hheader
    obtain ⟨hchecksum, hdatalen⟩ := frame_header aead key framingKey counter
      message rest (not_lt.mp hheader)
    obtain ⟨hchecksum', hdatalen', hmax⟩ := header_valid framingKey hfits
    simp only [hchecksum, hdatalen, hchecksum', hdatalen',
      validChecksumForKey_self, Bool.not_true, Bool.false_eq_true, if_false,
      if_neg (not_lt.mpr hmax), if_pos hshort]

/-- A reader that has got a whole frame yields its message. -/
theorem read_frame (rest : List UInt8) (ended : Bool) {available : ℕ}
    (hfits : MessageFits message)
    (hlong : (frame aead key framingKey counter message).length ≤ available) :
    CodecForwardReader.read
        (⟨⟨key, counter⟩, framingKey⟩ : CodecForwardReader aead)
        ((frame aead key framingKey counter message ++ rest).take available)
        ended =
      .chunk message (frame aead key framingKey counter message).length
        ⟨⟨key, advanceCounter counter⟩, framingKey⟩ := by
  have hlength : (frame aead key framingKey counter message).length ≤
      ((frame aead key framingKey counter message ++ rest).take
        available).length := by
    rw [List.length_take, List.length_append]
    omega
  have hbody : (((frame aead key framingKey counter message ++ rest).take
      available).drop 8).take (message.length + codecTagLen) =
      sealedBody aead key counter message := by
    rw [length_frame] at hlong
    rw [List.drop_take, List.take_take, min_eq_left (by omega)]
    simp only [frame, List.append_assoc]
    rw [← List.append_assoc (toBeBytes 4 _), List.drop_left' (by simp)]
    exact List.take_left' length_sealedBody
  rw [length_frame] at hlength hlong ⊢
  have hheader : 8 ≤ available := by omega
  obtain ⟨hchecksum, hdatalen⟩ := frame_header aead key framingKey counter
    message rest hheader
  obtain ⟨hchecksum', hdatalen', hmax⟩ := header_valid framingKey hfits
  unfold CodecForwardReader.read
  rw [if_neg (by omega), if_neg (by omega)]
  simp only [hchecksum, hdatalen, hchecksum', hdatalen',
    validChecksumForKey_self, Bool.not_true, Bool.false_eq_true, if_false,
    if_neg (not_lt.mpr hmax), if_neg (not_lt.mpr hlength), hbody,
    Aes256GcmDeCodec.decrypt, sealedBody, aead.open_seal]

end Frames

/-! ## The encrypted connection -/

/-- An encrypted connection means the messages of its frames, and reports the
end of the stream as a failed read of the next checksum. -/
def codecLink (aead : Aes256Gcm) (key framingKey : AesKeyType) :
    LawfulLink (codecEnd aead key framingKey) where
  Carries writer reader wire plain :=
    ∃ counter messages, (∀ message ∈ messages, MessageFits message) ∧
      reader = ⟨⟨key, counter⟩, framingKey⟩ ∧
      writer = ⟨⟨key, advanceCounter^[messages.length] counter⟩, framingKey⟩ ∧
      wire = frames aead key framingKey counter messages ∧
      plain = messages.flatten
  endFails := true
  carries_init := ⟨0, [], by simp, rfl, rfl, rfl, rfl⟩
  write_carries := by
    rintro writer reader wire plain message
      ⟨counter, messages, hmessages, rfl, rfl, rfl, rfl⟩ hfits
    refine ⟨_, _, write_eq hfits, counter, messages ++ [message], ?_, rfl, ?_,
      frames_append messages |>.symm, by simp⟩
    · intro other hother
      rcases List.mem_append.mp hother with hmem | hmem
      · exact hmessages other hmem
      · rwa [List.mem_singleton.mp hmem]
    · rw [List.length_append, List.length_singleton,
        Function.iterate_succ_apply']
  read_carries := by
    rintro writer reader wire plain available ended
      ⟨counter, messages, hmessages, rfl, rfl, rfl, rfl⟩ hwire hended
    cases messages with
    | nil => exact absurd rfl hwire
    | cons message messages =>
        have hfits := hmessages message List.mem_cons_self
        have hrest : ∀ other ∈ messages, MessageFits other :=
          fun other hother => hmessages other (List.mem_cons_of_mem _ hother)
        simp only [frames] at hended ⊢
        by_cases hlong :
            (frame aead key framingKey counter message).length ≤ available
        · right
          refine ⟨message, _, _, messages.flatten,
            read_frame _ ended hfits hlong, hfits, ?_, ?_, rfl, ?_⟩
          · rw [length_frame]
            omega
          · rw [List.length_append]
            omega
          · refine ⟨advanceCounter counter, messages, hrest, rfl, rfl, ?_, rfl⟩
            exact List.drop_left' rfl
        · left
          have hshort : available < (frame aead key framingKey counter message ++
              frames aead key framingKey (advanceCounter counter)
                messages).length := by
            rw [List.length_append]
            omega
          have hfalse : ended = false := by
            by_contra htrue
            have := hended (by simpa using htrue)
            omega
          subst hfalse
          refine ⟨hshort, _, read_frame_short _ hfits (not_le.mp hlong), counter,
            message :: messages, hmessages, rfl, rfl, rfl, rfl⟩
  read_idle := by
    intro writer reader plain hcarries
    exact ⟨reader, rfl, hcarries⟩
  read_end := by
    rintro writer reader plain ⟨counter, messages, hmessages, rfl, rfl, hnil, rfl⟩
    cases messages with
    | nil => exact ⟨rfl, _, rfl⟩
    | cons message messages =>
        have hlength := congrArg List.length hnil
        rw [frames, List.length_append, length_frame, List.length_nil] at hlength
        omega

end PbMapper.Protocol

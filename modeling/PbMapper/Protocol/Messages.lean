import PbMapper.Foundation.Framing
import PbMapper.Protocol.MessageCodec

/-!
# Length-prefixed messages

The message readers and writers on the bytes of a connection, plain and
encrypted, and the datagram readers and writers over them.  The readers keep one
buffer, which every message resizes to its own length.
-/

namespace PbMapper.Protocol

open BigEndian PbMapper.Core

/-! ## Buffers -/

/-- `Vec::resize`, filling with zeros. -/
def resizeBytes (bytes : List UInt8) (size : ℕ) : List UInt8 :=
  bytes.take size ++ List.replicate (size - bytes.length) 0

@[simp]
theorem length_resizeBytes (bytes : List UInt8) (size : ℕ) :
    (resizeBytes bytes size).length = size := by
  simp only [resizeBytes, List.length_append, List.length_take,
    List.length_replicate]
  omega

/-- The bytes written to the front of a buffer. -/
def overwrite (buffer bytes : List UInt8) : List UInt8 :=
  bytes ++ buffer.drop bytes.length

theorem length_overwrite {buffer bytes : List UInt8}
    (hbytes : bytes.length ≤ buffer.length) :
    (overwrite buffer bytes).length = buffer.length := by
  rw [overwrite, List.length_append, List.length_drop, ← Nat.add_sub_assoc hbytes,
    Nat.add_sub_cancel_left]

/-! ## Headers -/

/-- A header carries the checksum of its length under `checksumKey`, or else
under the key of the process credential. -/
def checksumMatches (processKey : Option AesKeyType) (datalen checksum : ℕ) :
    Option AesKeyType → Bool
  | some key => validChecksumForKey datalen checksum key
  | none => validChecksum processKey datalen checksum

def checksumFor (processKey : Option AesKeyType) (len : ℕ) :
    Option AesKeyType → Except Error ℕ
  | some key => .ok (getChecksumForKey len key)
  | none =>
      if !processChecksumIsReady processKey then
        .error (.msgCodec "load configured credential"
          ("`MSG_HEADER_KEY` is required; no insecure default checksum " ++
            "is available"))
      else .ok (getChecksum processKey len)

def getMsgLen (processKey checksumKey : Option AesKeyType) (stream : ByteStream) :
    Except Error ℕ × ByteStream :=
  match stream.readExact 4 with
  | (none, stream) => (.error .msgNetworkReadCheckSum, stream)
  | (some header, stream) =>
      let checksum := fromBeBytes header.toList
      match stream.readExact 4 with
      | (none, stream) => (.error .msgNetworkReadDatalen, stream)
      | (some header, stream) =>
          let datalen := fromBeBytes header.toList
          if checksumMatches processKey datalen checksum checksumKey then
            if datalen ≤ maxMsgLen then (.ok datalen, stream)
            else (.error (.msgDatalenExceeded datalen maxMsgLen), stream)
          else (.error (.msgDatalenValidate datalen checksum), stream)

/-- The header of a message of `len` bytes. -/
def setMsgLen (processKey checksumKey : Option AesKeyType) (len : ℕ) :
    Except Error (List UInt8) :=
  (checksumFor processKey len checksumKey).map fun checksum =>
    toBeBytes 4 checksum ++ toBeBytes 4 len

/-! ## Plain messages -/

/-- The buffer is that of a `CommonBuffer`, whose wanted size a reader of
messages does not use. -/
structure NormalMessageReader (processKey : Option AesKeyType) where
  buffer : List UInt8
  checksumKey : Option AesKeyType

structure NormalMessageWriter (processKey : Option AesKeyType) where
  checksumKey : Option AesKeyType

section Normal

variable {processKey : Option AesKeyType}

def NormalMessageReader.new : NormalMessageReader processKey :=
  ⟨List.replicate initBufSize 0, none⟩

def NormalMessageReader.withChecksumKey (reader : NormalMessageReader processKey)
    (key : AesKeyType) : NormalMessageReader processKey :=
  { reader with checksumKey := some key }

def NormalMessageReader.readMsg (reader : NormalMessageReader processKey)
    (stream : ByteStream) :
    Except Error (List UInt8) × NormalMessageReader processKey × ByteStream :=
  match getMsgLen processKey reader.checksumKey stream with
  | (.error error, stream) => (.error error, reader, stream)
  | (.ok datalen, stream) =>
      let buffer := resizeBytes reader.buffer datalen
      match stream.readExact datalen with
      -- What had arrived of the body stays in the buffer.
      | (none, rest) =>
          (.error .msgNetworkReadBody,
            { reader with buffer := overwrite buffer stream.bytes }, rest)
      | (some body, rest) =>
          let buffer := overwrite buffer body.toList
          (.ok (buffer.take datalen), { reader with buffer := buffer }, rest)

def NormalMessageWriter.new : NormalMessageWriter processKey := ⟨none⟩

def NormalMessageWriter.withChecksumKey (_ : NormalMessageWriter processKey)
    (key : AesKeyType) : NormalMessageWriter processKey := ⟨some key⟩

/-- The length is cast to 32 bits; nothing limits it. -/
def NormalMessageWriter.writeMsg (writer : NormalMessageWriter processKey)
    (msg : List UInt8) :
    Except Error (List UInt8) × NormalMessageWriter processKey :=
  ((setMsgLen processKey writer.checksumKey (msg.length % 2 ^ 32)).map
    (· ++ msg), writer)

end Normal

/-! ## Encrypted messages -/

structure CodecMessageReader (aead : Aes256Gcm)
    (processKey : Option AesKeyType) where
  reader : NormalMessageReader processKey
  decryptor : Aes256GcmDeCodec

structure CodecMessageWriter (aead : Aes256Gcm)
    (processKey : Option AesKeyType) where
  encryptor : Aes256GcmEnCodec
  checksumKey : Option AesKeyType

section Codec

variable {aead : Aes256Gcm} {processKey : Option AesKeyType}

def CodecMessageReader.new (decryptor : Aes256GcmDeCodec) :
    CodecMessageReader aead processKey :=
  ⟨.new, decryptor⟩

def CodecMessageReader.withChecksumKey
    (reader : CodecMessageReader aead processKey) (key : AesKeyType) :
    CodecMessageReader aead processKey :=
  { reader with reader := reader.reader.withChecksumKey key }

/-- Decrypts in place: the plaintext replaces the front of the buffer. -/
def CodecMessageReader.readMsg (reader : CodecMessageReader aead processKey)
    (stream : ByteStream) :
    Except Error (List UInt8) × CodecMessageReader aead processKey × ByteStream :=
  match reader.reader.readMsg stream with
  | (.error error, inner, stream) =>
      (.error error, { reader with reader := inner }, stream)
  | (.ok msg, inner, stream) =>
      match reader.decryptor.decrypt aead msg with
      | (none, decryptor) =>
          (.error (.msgCodec "decrypt"
            "got ring::error::Unspecified when we read msg"),
            ⟨inner, decryptor⟩, stream)
      | (some plain, decryptor) =>
          (.ok plain,
            ⟨{ inner with buffer := overwrite inner.buffer plain }, decryptor⟩,
            stream)

def CodecMessageWriter.new (encryptor : Aes256GcmEnCodec) :
    CodecMessageWriter aead processKey := ⟨encryptor, none⟩

def CodecMessageWriter.withChecksumKey
    (writer : CodecMessageWriter aead processKey) (key : AesKeyType) :
    CodecMessageWriter aead processKey :=
  { writer with checksumKey := some key }

def CodecMessageWriter.writeMsg (writer : CodecMessageWriter aead processKey)
    (msg : List UInt8) :
    Except Error (List UInt8) × CodecMessageWriter aead processKey :=
  let ((buf, tag), encryptor) := writer.encryptor.encrypt aead msg
  let msgLen := (buf.length + tag.toList.length) % 2 ^ 32
  ((setMsgLen processKey writer.checksumKey msgLen).map
    (· ++ (buf ++ tag.toList)), { writer with encryptor := encryptor })

end Codec

/-! ## Datagrams -/

/-- What `transfer_datagrams` asks of its two sides. -/
class DatagramReader (Reader : Type*) where
  recv : Reader → ByteStream → Except Error (List UInt8) × Reader × ByteStream

class DatagramWriter (Writer : Type*) where
  send : Writer → List UInt8 → Except Error (List UInt8) × Writer

structure NormalDatagramReader (processKey : Option AesKeyType) where
  reader : NormalMessageReader processKey

structure NormalDatagramWriter (processKey : Option AesKeyType) where
  writer : NormalMessageWriter processKey

structure CodecDatagramReader (aead : Aes256Gcm)
    (processKey : Option AesKeyType) where
  reader : CodecMessageReader aead processKey

structure CodecDatagramWriter (aead : Aes256Gcm)
    (processKey : Option AesKeyType) where
  writer : CodecMessageWriter aead processKey

section Datagrams

variable {aead : Aes256Gcm} {processKey : Option AesKeyType}

/-- `recv` copies the message out of the reader's buffer. -/
def NormalDatagramReader.recv (reader : NormalDatagramReader processKey)
    (stream : ByteStream) :
    Except Error (List UInt8) × NormalDatagramReader processKey × ByteStream :=
  let (msg, inner, stream) := reader.reader.readMsg stream
  (msg, ⟨inner⟩, stream)

def NormalDatagramWriter.send (writer : NormalDatagramWriter processKey)
    (src : List UInt8) :
    Except Error (List UInt8) × NormalDatagramWriter processKey :=
  let (bytes, inner) := writer.writer.writeMsg src
  (bytes, ⟨inner⟩)

def CodecDatagramReader.recv (reader : CodecDatagramReader aead processKey)
    (stream : ByteStream) :
    Except Error (List UInt8) × CodecDatagramReader aead processKey ×
      ByteStream :=
  let (msg, inner, stream) := reader.reader.readMsg stream
  (msg, ⟨inner⟩, stream)

def CodecDatagramWriter.send (writer : CodecDatagramWriter aead processKey)
    (src : List UInt8) :
    Except Error (List UInt8) × CodecDatagramWriter aead processKey :=
  let (bytes, inner) := writer.writer.writeMsg src
  (bytes, ⟨inner⟩)

instance : DatagramReader (NormalDatagramReader processKey) :=
  ⟨NormalDatagramReader.recv⟩

instance : DatagramWriter (NormalDatagramWriter processKey) :=
  ⟨NormalDatagramWriter.send⟩

instance : DatagramReader (CodecDatagramReader aead processKey) :=
  ⟨CodecDatagramReader.recv⟩

instance : DatagramWriter (CodecDatagramWriter aead processKey) :=
  ⟨CodecDatagramWriter.send⟩

/-- Receives and sends until either fails; the bytes sent, and the failure if it
came within so many rounds. -/
def transferDatagrams {Reader Writer : Type*} [DatagramReader Reader]
    [DatagramWriter Writer] :
    ℕ → Reader → Writer → ByteStream → List UInt8 × Option Error
  | 0, _, _, _ => ([], none)
  | rounds + 1, reader, writer, stream =>
      match DatagramReader.recv reader stream with
      | (.error error, _, _) => ([], some error)
      | (.ok src, reader, stream) =>
          match DatagramWriter.send writer src with
          | (.error error, _) => ([], some error)
          | (.ok bytes, writer) =>
              let (later, error) := transferDatagrams rounds reader writer stream
              (bytes ++ later, error)

end Datagrams

end PbMapper.Protocol

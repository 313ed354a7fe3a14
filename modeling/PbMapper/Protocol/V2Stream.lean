import PbMapper.Foundation.ByteStream
import PbMapper.Protocol.FirstFlight
import PbMapper.Protocol.V2Messages

/-!
# Protocol-v2 connections

Both ends of a connection on the bytes it carries: the client's first flight and
the frames behind it, the server's reading of the first flight, and the reads of
later messages.  A session writes each of its directions with one writer whose
counter starts at zero; the first flight carries frame zero of the client's.
-/

namespace PbMapper.Protocol

open Auth BigEndian PbMapper.Core MachineWord

/-! ## Frames -/

/-- `read_v2_frame`: the counter and the ciphertext of the next frame. -/
def readV2Frame (expectedCounter plaintextLimit : ℕ) (stream : ByteStream) :
    Except String (ℕ × List UInt8) × ByteStream :=
  match stream.readExact 8 with
  | (none, stream) =>
      (.error (protocolError "failed to read v2 counter: unexpected end of file"),
        stream)
  | (some header, stream) =>
      let counter := fromBeBytes header.toList
      if counter ≠ expectedCounter then
        (.error (protocolError ("protocol-v2 counter mismatch: expected " ++
          s!"{expectedCounter}, got {counter}")), stream)
      else
        match stream.readExact 4 with
        | (none, stream) =>
            (.error (protocolError
              "failed to read v2 length: unexpected end of file"), stream)
        | (some header, stream) =>
            let datalen := fromBeBytes header.toList
            let maxEncryptedLen := satAdd u32Max plaintextLimit codecTagLen
            if datalen < codecTagLen ∨ maxEncryptedLen < datalen then
              (.error (protocolError
                (s!"protocol-v2 payload length {datalen} exceeds " ++
                  s!"the {plaintextLimit}-byte limit")), stream)
            else
              match stream.readExact datalen with
              | (none, stream) =>
                  (.error (protocolError "failed to read v2 payload: early eof"),
                    stream)
              | (some ciphertext, stream) =>
                  (.ok (counter, ciphertext.toList), stream)

section Messages

variable (aead : Aes256Gcm)

def V2MessageReader.readMsgWithLimit (reader : V2MessageReader)
    (plaintextLimit : ℕ) (stream : ByteStream) :
    Except String (List UInt8 × V2MessageReader) × ByteStream :=
  match readV2Frame reader.expectedCounter plaintextLimit stream with
  | (.error error, stream) => (.error error, stream)
  | (.ok (counter, ciphertext), stream) =>
      if u32Max < ciphertext.length then
        (.error (protocolError "protocol-v2 payload exceeds u32 length"), stream)
      else
        match aead.openInPlace (directionKey reader.material reader.direction)
            (nonce counter)
            (frameAad reader.material reader.direction counter ciphertext.length)
            ciphertext with
        | none =>
            (.error (protocolError "protocol-v2 payload authentication failed"),
              stream)
        | some plain =>
            if reader.expectedCounter = u64Max then
              (.error (protocolError "protocol-v2 receive counter exhausted"),
                stream)
            else
              (.ok (plain,
                { reader with expectedCounter := reader.expectedCounter + 1 }),
                stream)

def V2MessageReader.readMsg (reader : V2MessageReader) (stream : ByteStream) :
    Except String (List UInt8 × V2MessageReader) × ByteStream :=
  reader.readMsgWithLimit aead (maxMsgLen - codecTagLen) stream

/-- Consecutive reads up to the first error: the messages they yield, and the
error if it came. -/
def V2MessageReader.readMsgs :
    ℕ → V2MessageReader → ByteStream → List (List UInt8) × Option String
  | 0, _, _ => ([], none)
  | reads + 1, reader, stream =>
      match reader.readMsg aead stream with
      | (.error error, _) => ([], some error)
      | (.ok (message, reader), stream) =>
          let (messages, error) := readMsgs reads reader stream
          (message :: messages, error)

/-- Consecutive writes up to the first error: the bytes they put on the wire,
and the last outcome. -/
def V2MessageWriter.writeMsgs (writer : V2MessageWriter) :
    List (List UInt8) → List UInt8 × Except String V2MessageWriter
  | [] => ([], .ok writer)
  | message :: messages =>
      match writer.writeMsg aead message with
      | (bytes, .error error) => (bytes, .error error)
      | (bytes, .ok writer) =>
          let (later, outcome) := writer.writeMsgs messages
          (bytes ++ later, outcome)

end Messages

/-! ## Clients -/

variable (crypto : V2Crypto)

/-- The salt a client draws: its clock reading, then eight random bytes. -/
def drawnSalt (now : ℕ) (random : Vector UInt8 8) : Salt :=
  ⟨(toBeBytes 8 now ++ random.toList).toArray, by simp [connectionSaltLen]⟩

/-- The session of a client; only tests construct legacy ones. -/
structure ClientHeaderSession where
  legacyKey : AesKeyType
  v2Material : V2Material

namespace ClientHeaderSession

def newV2 (keyId : KeyId) (key : AesKeyType) (salt : Salt) :
    ClientHeaderSession where
  legacyKey := key
  v2Material := deriveMaterial crypto keyId key salt

@[simp]
theorem v2Material_newV2 (keyId : KeyId) (key : AesKeyType) (salt : Salt) :
    (newV2 crypto keyId key salt).v2Material =
      deriveMaterial crypto keyId key salt := rfl

/-- `write_initial`: the prefix, then the frame of the message if it fits. -/
def writeInitial (session : ClientHeaderSession) (message : List UInt8) :
    List UInt8 × Except String Unit :=
  let (frame, outcome) := V2MessageWriter.writeMsg crypto.aead
    ⟨session.v2Material, .clientToServer, 0⟩ message
  (firstPrefix session.v2Material ++ frame, outcome.map fun _ => ())

def responseReader (session : ClientHeaderSession) : V2MessageReader :=
  ⟨session.v2Material, .serverToClient, 0⟩

def continuationWriter (session : ClientHeaderSession) : V2MessageWriter :=
  ⟨session.v2Material, .clientToServer, 1⟩

end ClientHeaderSession

/-! ## Servers -/

/-- A header reader; a legacy one starts a codec under the session's key. -/
inductive HeaderMessageReader where
  | legacy (key : AesKeyType)
  | v2 (reader : V2MessageReader)

inductive HeaderMessageWriter where
  | legacy (key : AesKeyType)
  | v2 (writer : V2MessageWriter)

variable {Context : Type*}

namespace ServerHeaderSession

def v2Material (session : ServerHeaderSession Context) :
    Except String V2Material :=
  match session.v2 with
  | some material => .ok material
  | none => .error (protocolError "v2 session is missing its key material")

def responseWriter (session : ServerHeaderSession Context) :
    Except String HeaderMessageWriter :=
  match session.protocol with
  | .legacy => .ok (.legacy session.legacyKey)
  | .v2 => session.v2Material.map fun material =>
      .v2 ⟨material, .serverToClient, 0⟩

def continuationReader (session : ServerHeaderSession Context) :
    Except String HeaderMessageReader :=
  match session.protocol with
  | .legacy => .ok (.legacy session.legacyKey)
  | .v2 => session.v2Material.map fun material =>
      .v2 ⟨material, .clientToServer, 1⟩

end ServerHeaderSession

structure ServerInitialMessage (Context : Type*) where
  payload : List UInt8
  session : ServerHeaderSession Context
  replayFingerprint : Option Fingerprint
  clientTimestamp : Option ℕ

def maxInitialPlaintextLen : ℕ := 64 * 1024

def maxInitialCiphertextLen : ℕ := maxInitialPlaintextLen + 16

/-- What the auth runtime, the replay guard and the clock contribute to one
first flight. -/
structure ServerSecurity (Context : Type*) (bytes : ℕ+) where
  legacyProtocolAllowed : Except AuthFailure Bool
  adminKey : Except AuthFailure AesKeyType
  deriveKey : KeyId → Except AuthFailure AesKeyType
  derivePreviousKey : KeyId → Option AesKeyType
  authenticatePresented : KeyId → AesKeyType → Except AuthFailure Context
  recordLegacyConnection : Except AuthFailure Unit
  replay : ReplayGuard bytes
  log : Option ReplayLog
  /-- The clock at the timestamp check, and under the guard's mutex. -/
  now : ℕ
  evaluatedAt : ℕ
  io : PersistIo
  compactIo : CompactIo

namespace ServerSecurity

variable {bytes : ℕ+} (security : ServerSecurity Context bytes)

/-- `evaluate_first_flight` for a flight presented with `key`. -/
def evaluate (keyId : KeyId) (key : AesKeyType) (salt : Salt)
    (work : FirstFlightWork Context) :
    Except (ServerInitialError Context) (List UInt8 × Context) :=
  (evaluateFirstFlight (security.authenticatePresented keyId key)
    security.replay security.log keyId (replayFingerprint crypto keyId salt)
    security.evaluatedAt security.io security.compactIo work).1

def readV2Initial (stream : ByteStream) :
    Except (ServerInitialError Context) (ServerInitialMessage Context) ×
      ByteStream :=
  match stream.readExact 28 with
  | (none, stream) =>
      (.error (.fail "protocol_v2_header_invalid"
        "failed to read protocol-v2 header: early eof" true), stream)
  | (some remainder, stream) =>
      match readV2Prefix remainder security.now with
      | .error error => (.error error, stream)
      | .ok (keyId, salt) =>
          match security.deriveKey keyId with
          | .error failure => (.error (.fromFailureKey failure keyId), stream)
          | .ok key =>
              let (frame, stream) := readV2Frame 0 maxInitialPlaintextLen stream
              match firstFlightWork crypto keyId salt
                  ⟨.ok key, frame, security.derivePreviousKey keyId,
                    security.authenticatePresented keyId key⟩ with
              | .error error => (.error error, stream)
              | .ok work =>
                  match security.evaluate crypto keyId key salt work with
                  | .error error => (.error error, stream)
                  | .ok (payload, context) =>
                      (.ok
                        { payload := payload
                          session :=
                            ⟨.v2, key, some (deriveMaterial crypto keyId key salt),
                              some context⟩
                          replayFingerprint :=
                            some (replayFingerprint crypto keyId salt)
                          clientTimestamp := some (saltTimestamp salt) },
                        stream)

/-- `legacy_protocol_allowed().unwrap_or(false)`. -/
def allowsLegacy : Bool :=
  match security.legacyProtocolAllowed with
  | .ok allowed => allowed
  | .error _ => false

/-- The first four bytes were not the magic; they are taken for a checksum. -/
def readLegacyInitial (checksumBytes : Vector UInt8 4) (stream : ByteStream) :
    Except (ServerInitialError Context) (ServerInitialMessage Context) ×
      ByteStream :=
  if !security.allowsLegacy then
    (.error (.fail "legacy_protocol_disabled"
      "legacy protocol is disabled by the administrator" false), stream)
  else
    match security.adminKey with
    | .error failure => (.error ⟨failure, none, none⟩, stream)
    | .ok key =>
        match stream.readExact 4 with
        | (none, stream) =>
            (.error (.fail "legacy_frame_invalid"
              "failed to read legacy frame length: unexpected end of file" true),
              stream)
        | (some header, stream) =>
            let datalen := fromBeBytes header.toList
            if !validChecksumForKey datalen (fromBeBytes checksumBytes.toList) key ∨
                maxInitialCiphertextLen < datalen then
              (.error (.fail "legacy_frame_invalid"
                "legacy frame checksum or length is invalid" false), stream)
            else
              match stream.readExact datalen with
              | (none, stream) =>
                  (.error (.fail "legacy_frame_invalid"
                    "failed to read legacy frame body: early eof" true), stream)
              | (some encrypted, stream) =>
                  match Aes256GcmDeCodec.decrypt crypto.aead ⟨key, 0⟩
                      encrypted.toList with
                  | (none, _) =>
                      (.error (.fail "legacy_decrypt_failed"
                        "legacy credential or encrypted frame is invalid" false),
                        stream)
                  | (some plain, _) =>
                      match security.authenticatePresented adminKeyId key with
                      | .error failure => (.error ⟨failure, none, none⟩, stream)
                      | .ok context =>
                          match security.recordLegacyConnection with
                          | .error failure =>
                              (.error ⟨failure, none, none⟩, stream)
                          | .ok () =>
                              (.ok
                                { payload := plain
                                  session := ⟨.legacy, key, none, some context⟩
                                  replayFingerprint := none
                                  clientTimestamp := none }, stream)

def readInitial (stream : ByteStream) :
    Except (ServerInitialError Context) (ServerInitialMessage Context) ×
      ByteStream :=
  match stream.readExact 4 with
  | (none, stream) =>
      (.error (.fail "protocol_header_read_failed"
        "failed to read initial protocol header: early eof" true), stream)
  | (some first, stream) =>
      if first.toList = protocolV2Magic then
        security.readV2Initial crypto stream
      else security.readLegacyInitial crypto first stream

end ServerSecurity

end PbMapper.Protocol

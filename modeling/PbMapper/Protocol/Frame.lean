import PbMapper.Auth.Types
import PbMapper.Core.Codec
import PbMapper.Protocol.Replay

/-!
# Protocol-v2 key material and frames

A connection's two directional keys are derived from its credential and its
salt; a frame is bound to the connection prefix, its direction, its counter and
its length.  The primitives are parameters.
-/

namespace PbMapper.Protocol

open Auth BigEndian PbMapper.Core

def connectionSaltLen : ℕ := 16

/-- The connection salt: the client's clock reading, then eight random bytes. -/
abbrev Salt := Vector UInt8 connectionSaltLen

/-- The primitives of the connection protocol. -/
structure V2Crypto where
  sha256 : List UInt8 → Vector UInt8 32
  /-- Salt, input key and label. -/
  hkdf : List UInt8 → AesKeyType → String → AesKeyType
  aead : Aes256Gcm

def protocolV2Magic : List UInt8 := [80, 66, 77, 50]

def protocolV2Version : UInt8 := 2

inductive Direction where
  | clientToServer
  | serverToClient
deriving DecidableEq, Repr

def Direction.byte : Direction → UInt8
  | .clientToServer => 0
  | .serverToClient => 1

structure V2Material where
  keyId : KeyId
  flags : UInt8
  salt : Salt
  clientToServer : AesKeyType
  serverToClient : AesKeyType
deriving DecidableEq

variable (crypto : V2Crypto)

def deriveMaterial (keyId : KeyId) (credentialKey : AesKeyType) (salt : Salt) :
    V2Material where
  keyId := keyId
  flags := 0
  salt := salt
  clientToServer := crypto.hkdf salt.toList credentialKey "pb-mapper-v2-c2s"
  serverToClient := crypto.hkdf salt.toList credentialKey "pb-mapper-v2-s2c"

def directionKey (material : V2Material) : Direction → AesKeyType
  | .clientToServer => material.clientToServer
  | .serverToClient => material.serverToClient

def firstPrefix (material : V2Material) : List UInt8 :=
  protocolV2Magic ++ [protocolV2Version, material.flags] ++ toBeBytes 2 0 ++
    toBeBytes 8 material.keyId.asU64 ++ material.salt.toList

def frameAad (material : V2Material) (direction : Direction)
    (counter datalen : ℕ) : List UInt8 :=
  firstPrefix material ++ [direction.byte] ++ toBeBytes 8 counter ++
    toBeBytes 4 datalen

def nonce (counter : ℕ) : List UInt8 := List.replicate 4 0 ++ toBeBytes 8 counter

def openV2Payload (material : V2Material) (direction : Direction)
    (counter : ℕ) (ciphertext : List UInt8) : Except String (List UInt8) :=
  if MachineWord.u32Max < ciphertext.length then
    .error "protocol-v2 error: protocol-v2 payload length is invalid"
  else
    match crypto.aead.openInPlace (directionKey material direction) (nonce counter)
        (frameAad material direction counter ciphertext.length) ciphertext with
    | some plain => .ok plain
    | none => .error "protocol-v2 error: protocol-v2 payload authentication failed"

def replayFingerprint (keyId : KeyId) (salt : Salt) : Fingerprint :=
  crypto.sha256 (toBeBytes 8 keyId.asU64 ++ salt.toList)

end PbMapper.Protocol

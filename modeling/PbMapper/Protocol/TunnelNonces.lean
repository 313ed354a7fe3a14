import PbMapper.Core.Codec
import Mathlib.Data.List.Induction
import Mathlib.Logic.Function.Basic

/-!
# Nonces of an encrypted tunnel

The codec key of a tunnel is shared by four encryptors: the one each endpoint
writes to the relay with, and the one the relay writes to each endpoint with.
All four count their messages from zero.  A tunnel is followed through every
order in which the endpoints write and the relay passes messages on, and
everything sealed on the way is recorded.
-/

namespace PbMapper.Protocol

open BigEndian PbMapper.Core

/-- A call of an encryptor: its key, its counter and the plaintext. -/
structure SealedMessage where
  key : AesKeyType
  counter : ℕ
  plain : List UInt8

def SealedMessage.nonce (message : SealedMessage) : List UInt8 :=
  counterNonce message.counter

/-- One direction: the endpoint that writes, what it has sent and the relay has
not read, and the relay's reader and writer. -/
structure CodecLeg where
  isDatagram : Bool
  endpointWriter : Aes256GcmEnCodec
  inFlight : List (List UInt8 × Vector UInt8 codecTagLen)
  relayReader : Aes256GcmDeCodec
  relayWriter : Aes256GcmEnCodec
  sealedMessages : List SealedMessage

inductive TunnelSide where
  | subscriber
  | provider
  deriving DecidableEq

/-- A codec-enabled tunnel: for each endpoint the direction it writes into. -/
abbrev CodecTunnel := TunnelSide → CodecLeg

/-- What happens in a tunnel: an endpoint's writer is given a chunk, or the relay
passes on the next message it has received from that endpoint. -/
inductive TunnelEvent where
  | write (side : TunnelSide) (chunk : List UInt8)
  | forward (side : TunnelSide)

/-! ## The codecs of one direction -/

/-- The chunks the copy loop seals: that of a stream ends at an empty read. -/
def isSealed (isDatagram : Bool) (chunk : List UInt8) : Bool :=
  isDatagram || !chunk.isEmpty

namespace CodecLeg

/-- `get_encodec` and `get_decodec` of the shared key. -/
def new (key : AesKeyType) (isDatagram : Bool) : CodecLeg where
  isDatagram := isDatagram
  endpointWriter := ⟨key, 0⟩
  inFlight := []
  relayReader := ⟨key, 0⟩
  relayWriter := ⟨key, 0⟩
  sealedMessages := []

variable (aead : Aes256Gcm) (leg : CodecLeg)

/-- `write_msg` of the endpoint. -/
def write (chunk : List UInt8) : CodecLeg :=
  if isSealed leg.isDatagram chunk then
    let (message, writer) := leg.endpointWriter.encrypt aead chunk
    { leg with
      endpointWriter := writer
      inFlight := leg.inFlight ++ [message]
      sealedMessages := leg.sealedMessages ++
        [⟨leg.endpointWriter.key, leg.endpointWriter.counter, chunk⟩] }
  else leg

/-- `read_msg` and `write_msg` of the relay.  Its copy loop ends when a message
does not open. -/
def forward : CodecLeg :=
  match leg.inFlight with
  | [] => leg
  | (ciphertext, tag) :: rest =>
      match leg.relayReader.decrypt aead (ciphertext ++ tag.toList) with
      | (none, reader) => { leg with relayReader := reader, inFlight := [] }
      | (some chunk, reader) =>
          if isSealed leg.isDatagram chunk then
            { leg with
              inFlight := rest
              relayReader := reader
              relayWriter := (leg.relayWriter.encrypt aead chunk).2
              sealedMessages := leg.sealedMessages ++
                [⟨leg.relayWriter.key, leg.relayWriter.counter, chunk⟩] }
          else { leg with relayReader := reader, inFlight := [] }

end CodecLeg

/-! ## The tunnel -/

namespace CodecTunnel

variable (aead : Aes256Gcm)

def new (key : AesKeyType) (isDatagram : Bool) : CodecTunnel :=
  fun _ => .new key isDatagram

def step (tunnel : CodecTunnel) : TunnelEvent → CodecTunnel
  | .write side chunk =>
      Function.update tunnel side ((tunnel side).write aead chunk)
  | .forward side => Function.update tunnel side ((tunnel side).forward aead)

def run (key : AesKeyType) (isDatagram : Bool) (events : List TunnelEvent) :
    CodecTunnel :=
  events.foldl (step aead) (new key isDatagram)

/-- No key and nonce seals two plaintexts, and no encryptor seals with its
counter at its last value, where advancing it panics or wraps. -/
structure NoncesUnique (tunnel : CodecTunnel) : Prop where
  unique : ∀ side side',
    ∀ first ∈ (tunnel side).sealedMessages,
      ∀ second ∈ (tunnel side').sealedMessages,
        first.key = second.key → first.nonce = second.nonce →
          first.plain = second.plain
  advances : ∀ side, ∀ message ∈ (tunnel side).sealedMessages,
    advanceCounter message.counter = message.counter + 1

end CodecTunnel

/-- The chunk an event gives to the encryptor of `side`. -/
def TunnelEvent.sealedBy (isDatagram : Bool) (side : TunnelSide) :
    TunnelEvent → Option (List UInt8)
  | .write writer chunk =>
      if writer = side ∧ isSealed isDatagram chunk then some chunk else none
  | .forward _ => none

def messagesFrom (isDatagram : Bool) (side : TunnelSide)
    (events : List TunnelEvent) : List (List UInt8) :=
  events.filterMap (TunnelEvent.sealedBy isDatagram side)

/-- The endpoints seal the same messages as far as both have sent some, and both
stop before the counter does. -/
structure MessagesAgree (isDatagram : Bool) (events : List TunnelEvent) :
    Prop where
  agree : ∀ (index : ℕ) (up down : List UInt8),
    (messagesFrom isDatagram .subscriber events)[index]? = some up →
      (messagesFrom isDatagram .provider events)[index]? = some down → up = down
  bounded : ∀ side, (messagesFrom isDatagram side events).length < 2 ^ 32

/-! ## What is sealed -/

theorem counterNonce_injective {left right : ℕ} (hleft : left < 2 ^ 32)
    (hright : right < 2 ^ 32) (heq : counterNonce left = counterNonce right) :
    left = right := by
  have hbytes : toBeBytes 4 left = toBeBytes 4 right :=
    List.append_cancel_left heq
  calc
    left = fromBeBytes (toBeBytes 4 left) := (fromBeBytes_toBeBytes hleft).symm
    _ = fromBeBytes (toBeBytes 4 right) := by rw [hbytes]
    _ = right := fromBeBytes_toBeBytes hright

theorem advanceCounter_mod (count : ℕ) :
    advanceCounter (count % 2 ^ 32) = (count + 1) % 2 ^ 32 :=
  Nat.mod_add_mod count (2 ^ 32) 1

variable {aead : Aes256Gcm} {key : AesKeyType} {isDatagram : Bool}

/-- The messages of one direction as they are put on the wire. -/
def sealedWire (aead : Aes256Gcm) (key : AesKeyType)
    (said : List (List UInt8)) : List (List UInt8 × Vector UInt8 codecTagLen) :=
  said.mapIdx fun index chunk =>
    aead.sealInPlace key (counterNonce (index % 2 ^ 32)) [] chunk

/-- The relay has passed on the first `passed` messages of `said`, and each
message is sealed under its own number, by one encryptor or by both. -/
structure CodecLeg.Coherent (aead : Aes256Gcm) (key : AesKeyType)
    (isDatagram : Bool) (said : List (List UInt8)) (passed : ℕ)
    (leg : CodecLeg) : Prop where
  kind : leg.isDatagram = isDatagram
  endpoint : leg.endpointWriter = ⟨key, said.length % 2 ^ 32⟩
  reader : leg.relayReader = ⟨key, passed % 2 ^ 32⟩
  writer : leg.relayWriter = ⟨key, passed % 2 ^ 32⟩
  inFlight : leg.inFlight = (sealedWire aead key said).drop passed
  passed_le : passed ≤ said.length
  nonempty : ∀ chunk ∈ said, isSealed isDatagram chunk = true
  messages : ∀ message, message ∈ leg.sealedMessages ↔
    ∃ index chunk, said[index]? = some chunk ∧
      message = ⟨key, index % 2 ^ 32, chunk⟩

theorem CodecLeg.coherent_new :
    (CodecLeg.new key isDatagram).Coherent aead key isDatagram [] 0 where
  kind := rfl
  endpoint := rfl
  reader := rfl
  writer := rfl
  inFlight := rfl
  passed_le := le_rfl
  nonempty _ hmem := absurd hmem List.not_mem_nil
  messages message := by simp [CodecLeg.new]

variable {said : List (List UInt8)} {passed : ℕ} {leg : CodecLeg}

theorem CodecLeg.Coherent.write
    (hleg : leg.Coherent aead key isDatagram said passed) {chunk : List UInt8}
    (hsealed : isSealed isDatagram chunk = true) :
    (leg.write aead chunk).Coherent aead key isDatagram (said ++ [chunk])
      passed := by
  have hlength : (sealedWire aead key said).length = said.length :=
    List.length_mapIdx
  rw [CodecLeg.write, hleg.kind, if_pos hsealed]
  refine ⟨rfl, ?_, hleg.reader, hleg.writer, ?_, ?_, ?_, ?_⟩
  · simp only [Aes256GcmEnCodec.encrypt, hleg.endpoint, advanceCounter_mod,
      List.length_append, List.length_singleton]
  · rw [sealedWire, List.mapIdx_append, List.drop_append_of_le_length
      (hlength.symm ▸ hleg.passed_le)]
    simp only [Aes256GcmEnCodec.encrypt, hleg.endpoint, hleg.inFlight]
    simp [sealedWire]
  · rw [List.length_append]
    exact hleg.passed_le.trans (Nat.le_add_right _ _)
  · intro other hother
    rcases List.mem_append.mp hother with hold | hnew
    · exact hleg.nonempty other hold
    · rwa [List.mem_singleton.mp hnew]
  · intro message
    rw [List.mem_append, hleg.messages, List.mem_singleton, hleg.endpoint]
    constructor
    · rintro (⟨index, other, hother, rfl⟩ | rfl)
      · exact ⟨index, other, by
          rw [List.getElem?_append_left (List.getElem?_eq_some_iff.mp hother).1,
            hother], rfl⟩
      · exact ⟨said.length, chunk, List.getElem?_concat_length, rfl⟩
    · rintro ⟨index, other, hother, rfl⟩
      rcases Nat.lt_or_ge index said.length with hlt | hge
      · rw [List.getElem?_append_left hlt] at hother
        exact .inl ⟨index, other, hother, rfl⟩
      · rw [List.getElem?_append_right hge] at hother
        obtain ⟨hindex, hchunk⟩ := List.getElem?_eq_some_iff.mp hother
        rw [List.length_singleton] at hindex
        obtain rfl : index = said.length := by omega
        simp only [List.getElem_singleton] at hchunk
        exact .inr (by rw [hchunk])

theorem CodecLeg.Coherent.forward
    (hleg : leg.Coherent aead key isDatagram said passed) :
    ∃ passed', (leg.forward aead).Coherent aead key isDatagram said passed' := by
  rw [CodecLeg.forward]
  cases hinFlight : leg.inFlight with
  | nil => exact ⟨passed, hleg⟩
  | cons front rest =>
      rw [hleg.inFlight] at hinFlight
      have hfront : (sealedWire aead key said)[passed]? = some front := by
        rw [← List.head?_drop, hinFlight, List.head?_cons]
      have hrest : (sealedWire aead key said).drop (passed + 1) = rest := by
        rw [← List.tail_drop, hinFlight, List.tail_cons]
      rw [sealedWire, List.getElem?_mapIdx] at hfront
      obtain ⟨chunk, hchunk, rfl⟩ := Option.map_eq_some_iff.mp hfront
      have hpassed : passed < said.length :=
        (List.getElem?_eq_some_iff.mp hchunk).1
      have hsealed := hleg.nonempty chunk (List.mem_of_getElem? hchunk)
      refine ⟨passed + 1, ?_⟩
      simp only [Aes256GcmDeCodec.decrypt, hleg.reader, aead.open_seal,
        advanceCounter_mod, hleg.kind, hsealed, if_true]
      refine ⟨rfl, hleg.endpoint, rfl, ?_, hrest.symm, hpassed, hleg.nonempty, ?_⟩
      · simp only [Aes256GcmEnCodec.encrypt, hleg.writer, advanceCounter_mod]
      · intro message
        rw [List.mem_append, hleg.messages, List.mem_singleton, hleg.writer]
        refine ⟨?_, .inl⟩
        rintro (hold | rfl)
        · exact hold
        · exact ⟨passed, chunk, hchunk, rfl⟩

/-- After every run each direction has sealed its messages, numbered from
zero. -/
theorem CodecTunnel.coherent_run (aead : Aes256Gcm) (key : AesKeyType)
    (isDatagram : Bool) (events : List TunnelEvent) (side : TunnelSide) :
    ∃ passed, ((run aead key isDatagram events) side).Coherent aead key
      isDatagram (messagesFrom isDatagram side events) passed := by
  induction events using List.reverseRecOn with
  | nil => exact ⟨0, CodecLeg.coherent_new⟩
  | append_singleton events event ih =>
      obtain ⟨passed, hleg⟩ := ih
      rw [run, List.foldl_append, List.foldl_cons, List.foldl_nil, messagesFrom,
        List.filterMap_append]
      cases event with
      | write writer chunk =>
          by_cases hgiven : writer = side ∧ isSealed isDatagram chunk = true
          · obtain ⟨rfl, hsealed⟩ := hgiven
            have hgives : TunnelEvent.sealedBy isDatagram writer
                (.write writer chunk) = some chunk := if_pos ⟨rfl, hsealed⟩
            rw [step, Function.update_self, List.filterMap_cons_some hgives]
            exact ⟨passed, hleg.write hsealed⟩
          · have hnone : TunnelEvent.sealedBy isDatagram side
                (.write writer chunk) = none := if_neg hgiven
            rw [List.filterMap_cons_none hnone, List.filterMap_nil,
              List.append_nil]
            refine ⟨passed, ?_⟩
            by_cases hside : writer = side
            · subst hside
              rw [step, Function.update_self, CodecLeg.write]
              have hempty : ¬isSealed ((run aead key isDatagram events)
                  writer).isDatagram chunk = true := by
                rw [hleg.kind]
                exact fun hsealed => hgiven ⟨rfl, hsealed⟩
              exact (if_neg hempty).symm ▸ hleg
            · rw [step, Function.update_of_ne (Ne.symm hside)]
              exact hleg
      | forward reader =>
          rw [List.filterMap_cons_none rfl, List.filterMap_nil, List.append_nil]
          by_cases hside : reader = side
          · subst hside
            rw [step, Function.update_self]
            exact hleg.forward
          · rw [step, Function.update_of_ne (Ne.symm hside)]
            exact ⟨passed, hleg⟩

theorem CodecTunnel.mem_sealedMessages {events : List TunnelEvent}
    {side : TunnelSide} {message : SealedMessage} :
    message ∈ ((run aead key isDatagram events) side).sealedMessages ↔
      ∃ index chunk, (messagesFrom isDatagram side events)[index]? = some chunk ∧
        message = ⟨key, index % 2 ^ 32, chunk⟩ := by
  obtain ⟨passed, hleg⟩ := coherent_run aead key isDatagram events side
  exact hleg.messages message

/-! ## Both directions -/

/-- The shared key never sees a nonce twice for two plaintexts exactly when the
endpoints do not seal different messages under the same number. -/
theorem CodecTunnel.noncesUnique_iff (aead : Aes256Gcm) (key : AesKeyType)
    (isDatagram : Bool) (events : List TunnelEvent) :
    (run aead key isDatagram events).NoncesUnique ↔
      MessagesAgree isDatagram events := by
  constructor
  · intro hunique
    have hbounded : ∀ side,
        (messagesFrom isDatagram side events).length < 2 ^ 32 := by
      intro side
      by_contra hlong
      have hlast : 2 ^ 32 - 1 < (messagesFrom isDatagram side events).length := by
        omega
      have hadvances : advanceCounter ((2 ^ 32 - 1) % 2 ^ 32) =
          (2 ^ 32 - 1) % 2 ^ 32 + 1 :=
        hunique.advances side _ (mem_sealedMessages.mpr
          ⟨2 ^ 32 - 1, _, List.getElem?_eq_getElem hlast, rfl⟩)
      exact absurd hadvances (by decide)
    refine ⟨fun index up down hup hdown => ?_, hbounded⟩
    exact hunique.unique .subscriber .provider _
      (mem_sealedMessages.mpr ⟨index, up, hup, rfl⟩) _
      (mem_sealedMessages.mpr ⟨index, down, hdown, rfl⟩) rfl rfl
  · intro hagree
    have hsmall : ∀ {side : TunnelSide} {index : ℕ} {chunk : List UInt8},
        (messagesFrom isDatagram side events)[index]? = some chunk →
          index < 2 ^ 32 := fun {side _ _} hchunk =>
      (List.getElem?_eq_some_iff.mp hchunk).1.trans (hagree.bounded side)
    constructor
    · intro side side' first hfirst second hsecond _ hnonce
      obtain ⟨index, chunk, hchunk, rfl⟩ := mem_sealedMessages.mp hfirst
      obtain ⟨index', chunk', hchunk', rfl⟩ := mem_sealedMessages.mp hsecond
      obtain rfl : index = index' := by
        have hcounter := counterNonce_injective (Nat.mod_lt _ (by decide))
          (Nat.mod_lt _ (by decide)) hnonce
        rwa [Nat.mod_eq_of_lt (hsmall hchunk), Nat.mod_eq_of_lt (hsmall hchunk')]
          at hcounter
      cases side with
      | subscriber =>
          cases side' with
          | subscriber => exact Option.some.inj (hchunk.symm.trans hchunk')
          | provider => exact hagree.agree index chunk chunk' hchunk hchunk'
      | provider =>
          cases side' with
          | subscriber =>
              exact (hagree.agree index chunk' chunk hchunk' hchunk).symm
          | provider => exact Option.some.inj (hchunk.symm.trans hchunk')
    · intro side message hmessage
      obtain ⟨index, chunk, hchunk, rfl⟩ := mem_sealedMessages.mp hmessage
      have hnext : index + 1 < 2 ^ 32 := by
        have hindex := (List.getElem?_eq_some_iff.mp hchunk).1
        have hbounded := hagree.bounded side
        omega
      rw [advanceCounter_mod, Nat.mod_eq_of_lt hnext,
        Nat.mod_eq_of_lt (hsmall hchunk)]

/-- One message each way: both are sealed with counter 0. -/
theorem CodecTunnel.answered_reuses_nonce :
    ¬(run .transparent (.replicate 32 7) false
      [.write .subscriber [1], .forward .subscriber, .write .provider [2],
        .forward .provider]).NoncesUnique := by
  intro hunique
  have hsame : [(1 : UInt8)] = [2] :=
    hunique.unique .subscriber .provider _
      (mem_sealedMessages.mpr ⟨0, [1], rfl, rfl⟩) _
      (mem_sealedMessages.mpr ⟨0, [2], rfl, rfl⟩) rfl rfl
  exact absurd hsame (by decide)

end PbMapper.Protocol

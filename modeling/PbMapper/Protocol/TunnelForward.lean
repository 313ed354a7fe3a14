import PbMapper.Protocol.MessageCodec

/-!
# Forwarding into an encrypted tunnel

A plain local connection on the client side, an encrypted connection on the
server side, compared with forwarding between two plain connections.  The
comparison is between what the peers get when nothing more can happen, given
that the peers have sent the same and closed the same directions.
-/

namespace PbMapper.Protocol

open PbMapper.Core

variable {aead : Aes256Gcm} {key framingKey : AesKeyType}

abbrev NormalForward :=
  ForwardState NormalForwardReader NormalForwardWriter NormalForwardReader
    NormalForwardWriter

abbrev TunnelForward (aead : Aes256Gcm) :=
  ForwardState NormalForwardReader NormalForwardWriter (CodecForwardReader aead)
    (CodecForwardWriter aead)

/-- `forward_local_to_remote` without a codec key. -/
def normalSystem : Transition.System NormalForward ForwardEvent :=
  forwardSystem normalEnd normalEnd

/-- `forward_local_to_remote` with a codec key. -/
def tunnelSystem (aead : Aes256Gcm) (key framingKey : AesKeyType) :
    Transition.System (TunnelForward aead) ForwardEvent :=
  forwardSystem normalEnd (codecEnd aead key framingKey)

/-- The plain forwarder delivers to each peer what the other has sent. -/
theorem normal_delivers {plain : NormalForward}
    (hreachable : normalSystem.Reachable plain) (hquiescent : plain.Quiescent) :
    plain.deliveries normalEnd normalEnd = plain.intended :=
  (forwardInvariant_of_reachable (restrict_of_not_endFails normalLink
    normalLink rfl rfl hreachable)).delivers hquiescent

/-- The tunnel neither stops a direction before its own end of stream, nor, once
it has nothing left to do, has delivered anything else than the plain forwarder
delivers when its peers have done the same. -/
def MatchesNormal (key framingKey : AesKeyType) (state : TunnelForward aead) :
    Prop :=
  state.StopsAtEnds ∧
    (state.Quiescent → ∀ plain : NormalForward,
      normalSystem.Reachable plain → plain.intended = state.intended →
        plain.Quiescent →
          state.deliveries normalEnd (codecEnd aead key framingKey) =
            plain.deliveries normalEnd normalEnd)

/-- The tunnel's end of stream is read only after the local one: the direction
from the local connection is finished when a poll of the other direction finds
its connection ended and empty. -/
def LocalEndsFirst (state : TunnelForward aead) : ForwardEvent → Prop
  | .poll .server _ =>
      state.server.ended = true → state.server.incoming = [] →
        state.clientToServer.isDone = true
  | _ => True

instance (state : TunnelForward aead) (event : ForwardEvent) :
    Decidable (LocalEndsFirst state event) :=
  match event with
  | .poll .server _ => inferInstanceAs (Decidable (_ → _ → _))
  | .poll .client _ => inferInstanceAs (Decidable True)
  | .send _ _ => inferInstanceAs (Decidable True)
  | .close _ => inferInstanceAs (Decidable True)
  | .flush _ _ => inferInstanceAs (Decidable True)

theorem localEndsFirst_iff (state : TunnelForward aead) (event : ForwardEvent) :
    LocalEndsFirst state event ↔
      EndsInOrder normalLink (codecLink aead key framingKey) state event := by
  cases event with
  | poll side available =>
      cases side <;> simp [LocalEndsFirst, EndsInOrder, normalLink, codecLink]
  | send side message => simp [LocalEndsFirst, EndsInOrder]
  | close side => simp [LocalEndsFirst, EndsInOrder]
  | flush side accepted => simp [LocalEndsFirst, EndsInOrder]

/-- A run of the tunnel matches plain forwarding exactly when the tunnel's end
of stream is never read before the local one. -/
theorem matchesNormal_iff {events : List ForwardEvent}
    {state : TunnelForward aead}
    (hrun : (tunnelSystem aead key framingKey).Run
      (.init normalEnd (codecEnd aead key framingKey)) events state) :
    MatchesNormal key framingKey state ↔
      ((tunnelSystem aead key framingKey).restrict LocalEndsFirst).Run
        (.init normalEnd (codecEnd aead key framingKey)) events state := by
  have hsame : (tunnelSystem aead key framingKey).restrict LocalEndsFirst =
      (tunnelSystem aead key framingKey).restrict
        (EndsInOrder normalLink (codecLink aead key framingKey)) := by
    congr 1
    funext state event
    exact propext (localEndsFirst_iff state event)
  have hstops := stopsAtEnds_iff_run normalLink (codecLink aead key framingKey)
    hrun
  rw [hsame]
  refine ⟨fun hmatches => hstops.mp hmatches.1, fun hordered =>
    ⟨hstops.mpr hordered, fun hquiescent plain hplain hsent hquiescent' => ?_⟩⟩
  rw [normal_delivers hplain hquiescent', hsent]
  exact (forwardInvariant_of_reachable ⟨_, events, rfl, hordered⟩).delivers
    hquiescent

/-! ## The half-closed tunnel -/

/-- The tunnel's peer half-closes first; what the local peer sends afterwards is
never read. -/
def halfCloseHistory : List ForwardEvent :=
  [.close .server, .poll .client 0, .poll .server 0, .send .client [104, 105]]

/-- The local peer ends first, and the answer arrives after its end. -/
def drainHistory : List ForwardEvent :=
  [.close .client, .poll .client 0, .send .server [104, 105], .close .server,
    .poll .server 64, .flush .server 64, .poll .server 64]

abbrev sharedKey : AesKeyType := .replicate 32 7

theorem halfCloseHistory_loses :
    ∃ state, (tunnelSystem .transparent sharedKey sharedKey).Run
        (.init normalEnd (codecEnd .transparent sharedKey sharedKey))
        halfCloseHistory state ∧
      state.Quiescent ∧ state.intended.toServer = [104, 105] ∧
      (state.deliveries normalEnd
        (codecEnd .transparent sharedKey sharedKey)).toServer = [] ∧
      ¬MatchesNormal sharedKey sharedKey state := by
  let start : TunnelForward .transparent :=
    .init normalEnd (codecEnd .transparent sharedKey sharedKey)
  have hrun : (halfCloseHistory.foldlM ForwardState.step start).map
      (fun state => (state.returned, state.clientToServer.isDone,
        state.intended.toServer, (state.deliveries normalEnd
          (codecEnd .transparent sharedKey sharedKey)).toServer)) =
      some (true, false, [104, 105], []) := by
    decide +kernel
  obtain ⟨state, hfold, hstate⟩ := Option.map_eq_some_iff.mp hrun
  simp only [Prod.mk.injEq] at hstate
  obtain ⟨hreturned, hdone, hsaid, hdelivered⟩ := hstate
  refine ⟨state, Transition.System.run_of_foldlM (fun _ _ _ hstep => hstep)
    hfold, .inl hreturned, hsaid, hdelivered, fun hmatches => ?_⟩
  have hclient := (hmatches.1 hreturned).1
  rw [hdone] at hclient
  cases hclient

/-- With the local end first, the answer arrives and the tunnel matches. -/
theorem matchesNormal_drainHistory :
    ∃ state : TunnelForward .transparent,
      (state.deliveries normalEnd
        (codecEnd .transparent sharedKey sharedKey)).toClient = [104, 105] ∧
      MatchesNormal sharedKey sharedKey state := by
  let start : TunnelForward .transparent :=
    .init normalEnd (codecEnd .transparent sharedKey sharedKey)
  have hrun : (drainHistory.foldlM (Transition.System.checked LocalEndsFirst
      ForwardState.step) start).map (fun state => (state.deliveries normalEnd
        (codecEnd .transparent sharedKey sharedKey)).toClient) =
      some [104, 105] := by
    decide +kernel
  obtain ⟨state, hfold, hdelivered⟩ := Option.map_eq_some_iff.mp hrun
  have hordered : ((tunnelSystem .transparent sharedKey sharedKey).restrict
      LocalEndsFirst).Run start drainHistory state :=
    Transition.System.run_of_foldlM Transition.System.checked_sound hfold
  exact ⟨state, hdelivered,
    (matchesNormal_iff hordered.of_restrict).mpr hordered⟩

end PbMapper.Protocol

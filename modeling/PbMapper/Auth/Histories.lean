import PbMapper.Auth.Restored

/-!
# Histories of a state directory

In every history the directory can be restored and the memory of the server that
runs is in order.
-/

namespace PbMapper.Auth

open PbMapper.Core MachineWord

variable {crypto : AuthCrypto}

structure AuthHistory.Coherent (history : AuthHistory) : Prop where
  dir : history.dir.Sound
  server : ∀ server, history.server = some server → server.memory.Kept

theorem AuthHistory.Coherent.step {history next : AuthHistory} {event : AuthEvent}
    (hcoherent : history.Coherent)
    (hstep : (authSystem crypto).step history event next) : next.Coherent := by
  have hrunning : ∀ {dir : StateDir} {config : AuthConfig} {memory : AuthMemory}
      {records : List AuthRecord}, dir.Sound → memory.Kept →
        Coherent ⟨dir, some ⟨config, memory⟩, records⟩ := by
    rintro dir config memory records hdir hkept
    refine ⟨hdir, fun server hserver => ?_⟩
    cases hserver
    exact hkept
  have hidle : ∀ {dir : StateDir} {records : List AuthRecord}, dir.Sound →
      Coherent ⟨dir, none, records⟩ :=
    fun hdir => ⟨hdir, nofun⟩
  cases step_moves hstep with
  | started _ hmove =>
      have hstarted := hmove.kept hcoherent.dir
      exact hrunning hstarted.1 (hstarted.2 _ rfl)
  | startCut _ hmove => exact hidle (hmove.kept hcoherent.dir).1
  | answered hserver hmove =>
      have hkept := hcoherent.server _ hserver
      exact hrunning (hmove.sound hkept hcoherent.dir) (hmove.kept hkept)
  | commandStopped hserver hmove =>
      exact hidle (hmove.sound (hcoherent.server _ hserver) hcoherent.dir)
  | ticked hserver hmove =>
      have hkept := hcoherent.server _ hserver
      exact hrunning (hmove.sound hkept hcoherent.dir) (hmove.kept hkept)
  | tickStopped hserver hmove =>
      exact hidle (hmove.sound (hcoherent.server _ hserver) hcoherent.dir)
  | authenticate hserver =>
      exact hrunning hcoherent.dir ((hcoherent.server _ hserver).quiet
        (AuthMemory.quiet_authenticatePresented crypto _ _ _))
  | check hserver =>
      exact hrunning hcoherent.dir ((hcoherent.server _ hserver).quiet
        (AuthMemory.quiet_check crypto _))
  | stop => exact hidle hcoherent.dir

theorem coherent_of_reachable {history : AuthHistory}
    (hreachable : (authSystem crypto).Reachable history) : history.Coherent := by
  apply hreachable.invariant
  · rintro history rfl
    exact ⟨.empty, nofun⟩
  · exact fun history event next hcoherent hstep => hcoherent.step hstep

/-! ## Sample runs -/

/-- Stand-ins for the libraries: a derived key is the sum of what it is derived
from, and every sealed record has the same length. -/
def AuthCrypto.sample : AuthCrypto where
  deriveTemporaryKey adminKey instanceId keyId :=
    .ofFn fun i => adminKey[i] + instanceId[i.val / 2] +
      .ofNat (keyId.asU64 / 256 ^ (i.val % 8))
  encodeTemporaryCredential keyId _ := s!"pbmt1_{keyId.asU64}"
  sealedLength _ := 300

def AuthConfig.sample (capacity : Fin 8) : AuthConfig where
  stateDir := "state"
  maxTemporaryKeys := capacity + 1
  maxTemporaryKeyTtl := maxTempKeyTtl
  legacyProtocol := .deny
  keys_pos := Nat.succ_pos _
  keys_le := (Nat.succ_le_of_lt capacity.isLt).trans (by decide)
  ttl_ge := by decide
  ttl_le := le_rfl

def sampleAdminKey (letter : UInt8) : AesKeyType := .replicate 32 letter

def AuthEvent.sampleStart (capacity : Fin 8) (now : Seconds)
    (outcomes : List FileOutcome) : AuthEvent :=
  .start (.sample capacity)
    ⟨fun _ => now, .generated (sampleAdminKey 65), .replicate 16 1⟩ outcomes

/-- The instance ids drawn at different seconds are different. -/
def AuthEvent.sampleCommand (now : Seconds) (authority : LeaseId)
    (command : AuthCommand) (outcomes : List FileOutcome) : AuthEvent :=
  .command ⟨fun _ => now, .replicate 16 (.ofNat now.val), ⟨[], []⟩⟩ authority
    command outcomes

def AuthHistory.play (events : List AuthEvent) : Option AuthHistory :=
  events.foldlM (AuthHistory.step .sample) .initial

theorem AuthHistory.reachable_play {events : List AuthEvent}
    {history : AuthHistory} (hplay : play events = some history) :
    (authSystem .sample).Reachable history :=
  Transition.System.reachable_of_foldlM (fun _ _ _ => id) rfl hplay

end PbMapper.Auth

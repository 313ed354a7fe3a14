import PbMapper.Protocol.Frame
import PbMapper.Protocol.ReplayHistory

/-!
# First flights

The server side of a connection's first message: the prefix and its clock check,
the body, and the evaluation under the replay guard.  Between the clock check
and the evaluation any number of other connections make progress, so a server
is a state with the flights that have passed the check, and a run interleaves
arrivals and evaluations.
-/

namespace PbMapper.Protocol

open Auth BigEndian PbMapper.Core

/-! ## Sessions and errors -/

inductive HeaderProtocol where
  | legacy
  | v2
deriving DecidableEq, Repr

structure ServerHeaderSession (Context : Type*) where
  protocol : HeaderProtocol
  legacyKey : AesKeyType
  v2 : Option V2Material
  context : Option Context

structure ServerInitialError (Context : Type*) where
  failure : AuthFailure
  responseSession : Option (ServerHeaderSession Context)
  presentedKeyId : Option KeyId

variable {Context : Type*}

namespace ServerInitialError

def fail (code message : String) (retryable : Bool) :
    ServerInitialError Context :=
  ⟨⟨code, message, retryable⟩, none, none⟩

def failKey (code message : String) (retryable : Bool) (keyId : KeyId) :
    ServerInitialError Context :=
  ⟨⟨code, message, retryable⟩, none, some keyId⟩

def fromFailureKey (failure : AuthFailure) (keyId : KeyId) :
    ServerInitialError Context :=
  ⟨failure, none, some keyId⟩

end ServerInitialError

def v2Session (key : AesKeyType) (material : V2Material) :
    ServerHeaderSession Context :=
  ⟨.v2, key, some material, none⟩

def sessionWithoutContext (session : ServerHeaderSession Context) :
    ServerHeaderSession Context :=
  { session with context := none }

/-! ## The prefix -/

def maxConnectionClockSkewSeconds : ℕ := 5 * 60

def defaultReplayWindowSeconds : ℕ := maxConnectionClockSkewSeconds * 2

/-- The bytes of the prefix behind the protocol magic. -/
abbrev PrefixRemainder := Vector UInt8 28

def prefixSalt (remainder : PrefixRemainder) : Salt :=
  Vector.ofFn fun index => remainder.get ⟨12 + index.val, by
    have := index.isLt
    simp only [connectionSaltLen] at this
    omega⟩

def saltTimestamp (salt : Salt) : ℕ := fromBeBytes (salt.toList.take 8)

/-- The first half of `read_v2_initial`: version, flags, reserved bits, and the
clock check of the timestamp inside the salt. -/
def readV2Prefix (remainder : PrefixRemainder) (now : ℕ) :
    Except (ServerInitialError Context) (KeyId × Salt) :=
  let version := remainder[0]
  let flags := remainder[1]
  let reserved := fromBeBytes [remainder[2], remainder[3]]
  if version ≠ protocolV2Version ∨ flags ≠ 0 ∨ reserved ≠ 0 then
    .error <| .fail
      (if version ≠ protocolV2Version then "protocol_version_unsupported"
        else "protocol_v2_header_invalid")
      (s!"unsupported protocol header version={version} flags={flags} " ++
        s!"reserved={reserved}")
      false
  else
    let keyId := KeyId.fromU64
      (fromBeBytes ((remainder.toList.drop 4).take 8))
    let salt := prefixSalt remainder
    let clientTimestamp := saltTimestamp salt
    if maxConnectionClockSkewSeconds <
        (now - clientTimestamp) + (clientTimestamp - now) then
      .error <| .failKey "connection_timestamp_invalid"
        "protocol-v2 connection timestamp is outside the accepted clock-skew window"
        false keyId
    else .ok (keyId, salt)

/-! ## The body -/

/-- What the rest of the runtime and the peer contribute to one flight after
its prefix. -/
structure FlightBody (Context : Type*) where
  /-- `derive_key`, from the root key current at that moment. -/
  derivedKey : Except AuthFailure AesKeyType
  /-- The frame read from the peer: its counter and ciphertext. -/
  frame : Except String (ℕ × List UInt8)
  /-- `derive_previous_key`. -/
  previousKey : Option AesKeyType
  /-- `authenticate_presented` with the derived key. -/
  authenticated : Except AuthFailure Context

inductive FirstFlightWork (Context : Type*) where
  | live (payload : List UInt8) (errorSession : ServerHeaderSession Context)
  | stale (error : ServerInitialError Context)

variable (crypto : V2Crypto)

def staleRootFirstFlight (previousKey : Option AesKeyType) (keyId : KeyId)
    (salt : Salt) (counter : ℕ) (ciphertext : List UInt8) :
    Option (ServerInitialError Context) :=
  match previousKey with
  | none => none
  | some previousKey =>
      let material := deriveMaterial crypto keyId previousKey salt
      match openV2Payload crypto material .clientToServer counter ciphertext with
      | .error _ => none
      | .ok _ =>
          let failure : AuthFailure :=
            if keyId.isAdmin then
              ⟨"administrator_key_invalid",
                "administrator credential does not match the active root key",
                false⟩
            else
              ⟨"temporary_key_rotated",
                "temporary credential was invalidated by administrator root " ++
                  "rotation or auth-state reset",
                false⟩
          some ⟨failure, some (v2Session previousKey material), some keyId⟩

/-- The second half of `read_v2_initial`, up to the evaluation. -/
def firstFlightWork (keyId : KeyId) (salt : Salt) (body : FlightBody Context) :
    Except (ServerInitialError Context) (FirstFlightWork Context) :=
  match body.derivedKey with
  | .error failure => .error (.fromFailureKey failure keyId)
  | .ok key =>
      let material := deriveMaterial crypto keyId key salt
      match body.frame with
      | .error detail =>
          .error (.failKey "protocol_v2_decrypt_failed" detail false keyId)
      | .ok (counter, ciphertext) =>
          match openV2Payload crypto material .clientToServer counter
              ciphertext with
          | .ok payload =>
              .ok (.live payload
                (sessionWithoutContext (v2Session key material)))
          | .error detail =>
              match staleRootFirstFlight crypto body.previousKey keyId salt
                  counter ciphertext with
              | some stale => .ok (.stale stale)
              | none =>
                  .error (.failKey "protocol_v2_decrypt_failed" detail false
                    keyId)

/-! ## The evaluation -/

variable {bytes : ℕ+}

/-- An evaluated flight: the answer to its connection and the guard and log it
leaves. -/
abbrev Evaluated (Context : Type*) (bytes : ℕ+) :=
  Except (ServerInitialError Context) (List UInt8 × Context) ×
    ReplayGuard bytes × Option ReplayLog

def reservedErrorSession (replay : ReplayGuard bytes) (log : Option ReplayLog)
    (fingerprint : Fingerprint) (now : ℕ) (io : PersistIo)
    (session : ServerHeaderSession Context) :
    Option (ServerHeaderSession Context) × ReplayGuard bytes ×
      Option ReplayLog :=
  match replay.claim log fingerprint now io with
  | (.fresh, replay, log) => (some session, replay, log)
  | (_, replay, log) => (none, replay, log)

/-- The evaluation holds the guard's mutex throughout; `now` is the clock
reading made under it. -/
def evaluateFirstFlight (authenticated : Except AuthFailure Context)
    (replay : ReplayGuard bytes) (log : Option ReplayLog) (keyId : KeyId)
    (fingerprint : Fingerprint) (now : ℕ) (io : PersistIo)
    (compactIo : CompactIo) :
    FirstFlightWork Context → Evaluated Context bytes
  | .live payload errorSession =>
      match authenticated with
      | .error failure =>
          let (session, replay, log) :=
            reservedErrorSession replay log fingerprint now io errorSession
          (.error ⟨failure, session, some keyId⟩, replay, log)
      | .ok context =>
          match replay.admitFresh log keyId fingerprint now io compactIo with
          | (.fresh, replay, log) => (.ok (payload, context), replay, log)
          | (.replayed, replay, log) =>
              (.error (.failKey "connection_salt_replayed"
                "protocol-v2 connection salt was already accepted" true keyId),
                replay, log)
          | (.limited, replay, log) =>
              (.error (.failKey "connection_admission_limited"
                ("this credential has opened too many new connections in the " ++
                  "current window")
                true keyId), replay, log)
          | (.unavailable, replay, log) =>
              (.error (.failKey "connection_replay_store_unavailable"
                "failed to persist first-flight replay admission" true keyId),
                replay, log)
  | .stale error =>
      match error.responseSession with
      | none => (.error error, replay, log)
      | some session =>
          let (session, replay, log) :=
            reservedErrorSession replay log fingerprint now io session
          (.error { error with responseSession := session }, replay, log)

/-- A flight that got a context or a session to answer it in. -/
def Granted : Except (ServerInitialError Context) (List UInt8 × Context) → Bool
  | .ok _ => true
  | .error error => error.responseSession.isSome

/-- Every evaluation either leaves the guard alone and grants nothing, or is
one `admit` or `claim` that grants exactly when it is answered fresh. -/
theorem evaluateFirstFlight_spec (authenticated : Except AuthFailure Context)
    (replay : ReplayGuard bytes) (log : Option ReplayLog) (keyId : KeyId)
    (fingerprint : Fingerprint) (now : ℕ) (io : PersistIo)
    (compactIo : CompactIo) (work : FirstFlightWork Context) :
    let evaluated := evaluateFirstFlight authenticated replay log keyId
      fingerprint now io compactIo work
    (Granted evaluated.1 = false ∧ evaluated.2 = (replay, log)) ∨
      ∃ answer, replay.CallSpec log fingerprint now (answer, evaluated.2) ∧
        (Granted evaluated.1 = true ↔ answer = .fresh) := by
  have hclaim := replay.claim_spec log fingerprint now io
  cases work with
  | live payload errorSession =>
      right
      cases authenticated with
      | error failure =>
          unfold evaluateFirstFlight reservedErrorSession
          revert hclaim
          rcases replay.claim log fingerprint now io with
            ⟨_ | _ | _ | _, replay', log'⟩ <;> intro hclaim <;>
            exact ⟨_, hclaim, by simp [Granted]⟩
      | ok context =>
          have hadmits := replay.admit_spec log keyId fingerprint now io compactIo
          unfold evaluateFirstFlight
          revert hadmits
          rcases replay.admitFresh log keyId fingerprint now io compactIo with
            ⟨_ | _ | _ | _, replay', log'⟩ <;> intro hadmits <;>
            exact ⟨_, hadmits, by simp [Granted, ServerInitialError.failKey]⟩
  | stale error =>
      unfold evaluateFirstFlight reservedErrorSession
      rcases error with ⟨failure, _ | session, presentedKeyId⟩
      · exact .inl ⟨rfl, rfl⟩
      · right
        revert hclaim
        rcases replay.claim log fingerprint now io with
          ⟨_ | _ | _ | _, replay', log'⟩ <;> intro hclaim <;>
          exact ⟨_, hclaim, by simp [Granted]⟩

/-! ## The server -/

/-- A flight whose prefix has passed the clock check at `checkedAt`. -/
structure PendingFlight where
  keyId : KeyId
  salt : Salt
  checkedAt : ℕ

/-- A granted flight and the second of its evaluation. -/
structure Grant where
  keyId : KeyId
  salt : Salt
  grantedAt : ℕ
deriving DecidableEq

structure FirstFlightServer (bytes : ℕ+) where
  world : ReplayWorld bytes
  pending : List PendingFlight
  granted : List Grant

inductive FirstFlightEvent (Context : Type*) where
  /-- A connection's prefix has been read; its timestamp is checked. -/
  | arrive (remainder : PrefixRemainder) (now : ℕ)
  /-- The body of a pending flight has been read; it is evaluated. -/
  | finish (index : ℕ) (body : FlightBody Context) (now : ℕ) (io : PersistIo)
      (compactIo : CompactIo)

namespace FirstFlightServer

/-- The server after an evaluation.  An answer later than the control timeout
reaches nobody, but leaves its mark in the guard. -/
def evaluated (controlTimeout : ℕ) (server : FirstFlightServer bytes)
    (flight : PendingFlight) (pending : List PendingFlight)
    (fingerprint : Fingerprint) (now : ℕ)
    (result : Evaluated Context bytes) : FirstFlightServer bytes where
  world :=
    { guard := result.2.1
      log := result.2.2
      clock := now
      answered :=
        if Granted result.1 then (fingerprint, now) :: server.world.answered
        else server.world.answered }
  pending := pending
  granted :=
    if Granted result.1 ∧ now ≤ flight.checkedAt + controlTimeout then
      ⟨flight.keyId, flight.salt, now⟩ :: server.granted
    else server.granted

def step (controlTimeout : ℕ) (server : FirstFlightServer bytes) :
    FirstFlightEvent Context → Option (FirstFlightServer bytes)
  | .arrive remainder now =>
      if server.world.clock ≤ now then
        let pending :=
          match (readV2Prefix remainder now :
              Except (ServerInitialError Context) (KeyId × Salt)) with
          | .ok (keyId, salt) => server.pending ++ [⟨keyId, salt, now⟩]
          | .error _ => server.pending
        some { server with
          world := { server.world with clock := now }
          pending := pending }
      else none
  | .finish index body now io compactIo =>
      match server.pending[index]? with
      | none => none
      | some flight =>
          if server.world.clock ≤ now then
            let pending := server.pending.eraseIdx index
            let fingerprint := replayFingerprint crypto flight.keyId flight.salt
            match firstFlightWork crypto flight.keyId flight.salt body with
            | .error _ =>
                some { server with
                  world := { server.world with clock := now }
                  pending := pending }
            | .ok work =>
                some (server.evaluated controlTimeout flight pending fingerprint
                  now
                  (evaluateFirstFlight body.authenticated server.world.guard
                    server.world.log flight.keyId fingerprint now io compactIo
                    work))
          else none

/-- `ServerSecurity::new`: a guard opened with the default window. -/
def Initial (server : FirstFlightServer bytes) : Prop :=
  server.world.Initial defaultReplayWindowSeconds ∧ server.pending = [] ∧
    server.granted = []

end FirstFlightServer

def firstFlightSystem (Context : Type*) (bytes : ℕ+) (controlTimeout : ℕ) :
    Transition.System (FirstFlightServer bytes) (FirstFlightEvent Context) :=
  .ofPartial FirstFlightServer.Initial
    (FirstFlightServer.step crypto controlTimeout)

/-- No two granted flights carry the same key id and the same salt. -/
def SaltsDistinct (granted : List Grant) : Prop :=
  granted.Pairwise fun newer older =>
    (newer.keyId, newer.salt) ≠ (older.keyId, older.salt)

/-- The evaluation happens while the timestamp is still inside the accepted
clock skew, as it was when it was checked. -/
def EvaluatedInTime (server : FirstFlightServer bytes) :
    FirstFlightEvent Context → Prop
  | .arrive _ _ => True
  | .finish index _ now _ _ =>
      ∀ flight ∈ server.pending[index]?,
        now ≤ saltTimestamp flight.salt + maxConnectionClockSkewSeconds

instance (server : FirstFlightServer bytes) (event : FirstFlightEvent Context) :
    Decidable (EvaluatedInTime server event) :=
  match event with
  | .arrive .. => inferInstanceAs (Decidable True)
  | .finish .. => inferInstanceAs (Decidable (∀ flight ∈ _, _ ≤ _))

/-! ## The invariant -/

/-- A passed clock check, read off the prefix function. -/
theorem readV2Prefix_timestamp {remainder : PrefixRemainder} {now : ℕ}
    {keyId : KeyId} {salt : Salt}
    (hfront : (readV2Prefix remainder now :
      Except (ServerInitialError Context) (KeyId × Salt)) = .ok (keyId, salt)) :
    saltTimestamp salt ≤ now + maxConnectionClockSkewSeconds := by
  unfold readV2Prefix at hfront
  dsimp only at hfront
  split at hfront
  · cases hfront
  split at hfront
  · cases hfront
  · simp only [Except.ok.injEq, Prod.mk.injEq] at hfront
    rw [← hfront.2]
    omega

/-- The guard's invariant, pending flights no earlier than their timestamps
allow, and every grant among the guard's fresh answers. -/
structure FirstFlightInvariant (server : FirstFlightServer bytes) : Prop where
  replay : ReplayInvariant defaultReplayWindowSeconds server.world
  checked : ∀ flight ∈ server.pending,
    flight.checkedAt ≤ server.world.clock ∧
      saltTimestamp flight.salt ≤
        flight.checkedAt + maxConnectionClockSkewSeconds
  answered : ∀ grant ∈ server.granted,
    (replayFingerprint crypto grant.keyId grant.salt, grant.grantedAt) ∈
        server.world.answered ∧
      saltTimestamp grant.salt ≤ grant.grantedAt + maxConnectionClockSkewSeconds
  distinct : SaltsDistinct server.granted

theorem clockFits_default (now : ℕ) :
    ClockFits defaultReplayWindowSeconds now :=
  .inl (by decide)

variable {crypto}

/-- Time passing keeps the guard's invariant. -/
theorem ReplayInvariant.tick {window now : ℕ} {world : ReplayWorld bytes}
    (hinv : ReplayInvariant window world) (hclock : world.clock ≤ now) :
    ReplayInvariant window { world with clock := now } where
  windowSeconds := hinv.windowSeconds
  bloomWindow := hinv.bloomWindow
  stamped := fun file hfile record hrecord =>
    (hinv.stamped file hfile record hrecord).trans hclock
  remembered := fun hopen => by
    obtain ⟨memory, hrefines, htimely, hentries⟩ := hinv.remembered hopen
    exact ⟨memory, hrefines, htimely, fun entry hentry hrecent =>
      hentries entry hentry (hclock.trans hrecent)⟩
  durable := fun hsome entry hentry hrecent =>
    hinv.durable hsome entry hentry (hclock.trans hrecent)
  noEarlyRepeat := hinv.noEarlyRepeat

/-- A step that grants nothing and leaves the guard alone. -/
theorem FirstFlightInvariant.tick {server : FirstFlightServer bytes} {now : ℕ}
    {pending : List PendingFlight}
    (hinv : FirstFlightInvariant crypto server)
    (hclock : server.world.clock ≤ now)
    (hpending : ∀ flight ∈ pending, flight.checkedAt ≤ now ∧
      saltTimestamp flight.salt ≤
        flight.checkedAt + maxConnectionClockSkewSeconds) :
    FirstFlightInvariant crypto
      { server with
        world := { server.world with clock := now }
        pending := pending } where
  replay := hinv.replay.tick hclock
  checked := hpending
  answered := hinv.answered
  distinct := hinv.distinct

/-- An evaluation in time keeps the invariant: an earlier grant of the same key
id and salt was recorded no earlier than the timestamp allows, so the guard
still remembers it. -/
theorem FirstFlightInvariant.evaluated {server : FirstFlightServer bytes}
    {controlTimeout now : ℕ} {flight : PendingFlight}
    {pending : List PendingFlight} {result : Evaluated Context bytes}
    (hinv : FirstFlightInvariant crypto server)
    (hclock : server.world.clock ≤ now) (hflight : flight ∈ server.pending)
    (hsub : ∀ other ∈ pending, other ∈ server.pending)
    (hintime : now ≤ saltTimestamp flight.salt + maxConnectionClockSkewSeconds)
    (hspec : (Granted result.1 = false ∧
        result.2 = (server.world.guard, server.world.log)) ∨
      ∃ answer, server.world.guard.CallSpec server.world.log
          (replayFingerprint crypto flight.keyId flight.salt) now
          (answer, result.2) ∧
        (Granted result.1 = true ↔ answer = .fresh)) :
    FirstFlightInvariant crypto
      (server.evaluated controlTimeout flight pending
        (replayFingerprint crypto flight.keyId flight.salt) now result) := by
  have hpending : ∀ other ∈ pending, other.checkedAt ≤ now ∧
      saltTimestamp other.salt ≤
        other.checkedAt + maxConnectionClockSkewSeconds :=
    fun other hother =>
      ⟨(hinv.checked other (hsub other hother)).1.trans hclock,
        (hinv.checked other (hsub other hother)).2⟩
  rcases hspec with ⟨hgranted, hguard⟩ | ⟨answer, hcall, hgranted⟩
  · have htick := hinv.tick hclock hpending
    simpa only [FirstFlightServer.evaluated, hgranted, hguard,
      Bool.false_eq_true, false_and, if_false] using htick
  have hreplay := replayInvariant_answer hinv.replay (by decide)
    (clockFits_default now) hclock hcall
  cases hfresh : Granted result.1 with
  | false =>
      have hanswer : answer ≠ .fresh := fun h => by
        rw [hgranted.mpr h] at hfresh
        cases hfresh
      simp only [ReplayWorld.answer, hanswer, if_false] at hreplay
      simp only [FirstFlightServer.evaluated, hfresh, Bool.false_eq_true,
        false_and, if_false]
      exact ⟨hreplay, hpending, hinv.answered, hinv.distinct⟩
  | true =>
      have hanswer : answer = .fresh := hgranted.mp hfresh
      simp only [ReplayWorld.answer, hanswer, if_true] at hreplay
      simp only [FirstFlightServer.evaluated, hfresh, true_and, if_true]
      have hstamp : saltTimestamp flight.salt ≤
          now + maxConnectionClockSkewSeconds := by
        have := hinv.checked flight hflight
        omega
      have hanswered : ∀ grant ∈ server.granted,
          (replayFingerprint crypto grant.keyId grant.salt, grant.grantedAt) ∈
              (replayFingerprint crypto flight.keyId flight.salt, now) ::
                server.world.answered ∧
            saltTimestamp grant.salt ≤
              grant.grantedAt + maxConnectionClockSkewSeconds :=
        fun grant hgrant =>
          ⟨List.mem_cons_of_mem _ (hinv.answered grant hgrant).1,
            (hinv.answered grant hgrant).2⟩
      refine ⟨hreplay, hpending, ?_, ?_⟩
      · intro grant hgrant
        dsimp only at hgrant
        split at hgrant
        · rcases List.mem_cons.mp hgrant with rfl | hmem
          · exact ⟨List.mem_cons_self, hstamp⟩
          · exact hanswered grant hmem
        · exact hanswered grant hgrant
      · dsimp only
        split
        · refine List.pairwise_cons.mpr ⟨fun grant hgrant heq => ?_,
            hinv.distinct⟩
          obtain ⟨hkey, hsalt⟩ : flight.keyId = grant.keyId ∧
              flight.salt = grant.salt := Prod.mk.inj heq
          obtain ⟨hmem, hearly⟩ := hinv.answered grant hgrant
          have hrepeat := (List.pairwise_cons.mp hreplay.noEarlyRepeat).1 _ hmem
            (by rw [hkey, hsalt])
          dsimp only [defaultReplayWindowSeconds] at hrepeat
          rw [← hsalt] at hearly
          omega
        · exact hinv.distinct

theorem firstFlightInvariant_step {server next : FirstFlightServer bytes}
    {controlTimeout : ℕ} {event : FirstFlightEvent Context}
    (hinv : FirstFlightInvariant crypto server)
    (hintime : EvaluatedInTime server event)
    (hstep : server.step crypto controlTimeout event = some next) :
    FirstFlightInvariant crypto next := by
  cases event with
  | arrive remainder now =>
      simp only [FirstFlightServer.step, Option.ite_none_right_eq_some] at hstep
      obtain ⟨hclock, hnext⟩ := hstep
      rw [← Option.some.inj hnext]
      refine hinv.tick hclock fun flight hflight => ?_
      have hold : ∀ other ∈ server.pending, other.checkedAt ≤ now ∧
          saltTimestamp other.salt ≤
            other.checkedAt + maxConnectionClockSkewSeconds :=
        fun other hother => ⟨(hinv.checked other hother).1.trans hclock,
          (hinv.checked other hother).2⟩
      split at hflight
      · rename_i keyId salt hfront
        rcases List.mem_append.mp hflight with hmem | hmem
        · exact hold flight hmem
        · rw [List.mem_singleton.mp hmem]
          exact ⟨le_rfl, readV2Prefix_timestamp hfront⟩
      · exact hold flight hflight
  | finish index body now io compactIo =>
      simp only [FirstFlightServer.step] at hstep
      split at hstep
      · cases hstep
      rename_i flight hflight
      have hmem : flight ∈ server.pending := List.mem_of_getElem? hflight
      have hsub : ∀ other ∈ server.pending.eraseIdx index,
          other ∈ server.pending :=
        fun other hother => List.mem_of_mem_eraseIdx hother
      simp only [Option.ite_none_right_eq_some] at hstep
      obtain ⟨hclock, hnext⟩ := hstep
      split at hnext
      · rw [← Option.some.inj hnext]
        exact hinv.tick hclock fun other hother =>
          ⟨(hinv.checked other (hsub other hother)).1.trans hclock,
            (hinv.checked other (hsub other hother)).2⟩
      · rw [← Option.some.inj hnext]
        exact hinv.evaluated hclock hmem hsub (hintime flight hflight)
          (evaluateFirstFlight_spec _ _ _ _ _ _ _ _ _)

/-- Over every interleaving whose evaluations happen in time, at most one of
the first flights with the same key id and salt is granted. -/
theorem saltsDistinct_of_reachable {server : FirstFlightServer bytes}
    {controlTimeout : ℕ}
    (hreachable : ((firstFlightSystem crypto Context bytes
      controlTimeout).restrict EvaluatedInTime).Reachable server) :
    SaltsDistinct server.granted := by
  refine (hreachable.invariant (motive := FirstFlightInvariant crypto) ?_
    ?_).distinct
  · rintro state ⟨hworld, hpending, hgranted⟩
    refine ⟨replayInvariant_initial hworld, ?_, ?_, ?_⟩
    · simp [hpending]
    · simp [hgranted]
    · simp [SaltsDistinct, hgranted]
  · exact fun _ _ _ hinv hstep =>
      firstFlightInvariant_step hinv hstep.1 hstep.2

/-! ## The late evaluation -/

/-- Stand-ins for the primitives: the fingerprint is the hashed input itself,
every key is the credential key, and nothing is enciphered. -/
def V2Crypto.transparent : V2Crypto where
  sha256 input := Vector.ofFn fun index => input.getD index 0
  hkdf _ key _ := key
  aead := .transparent

/-- A prefix of key id 7 whose salt carries the timestamp 899. -/
def lateRemainder : PrefixRemainder :=
  #v[2, 0, 0, 0, 0, 0, 0, 0, 0, 0, 0, 7, 0, 0, 0, 0, 0, 0, 3, 131, 1, 2, 3, 4, 5,
    6, 7, 8]

/-- A well-formed body whose credential authenticates. -/
def liveBody : FlightBody KeyId where
  derivedKey := .ok (.replicate 32 9)
  frame := .ok (0, List.replicate 20 1)
  previousKey := none
  authenticated := .ok (KeyId.fromU64 7)

/-- The guard was opened at second 0.  A flight stamped 899 is granted at 599;
its copy passes the clock check at 1199, the last second that accepts it, and is
evaluated one second later, when the guard has just forgotten the first. -/
def lateHistory : List (FirstFlightEvent KeyId) :=
  [.arrive lateRemainder 599, .finish 0 liveBody 599 .success .success,
    .arrive lateRemainder 1199, .finish 0 liveBody 1200 .success .success]

def FirstFlightServer.fresh (bytes : ℕ+) : FirstFlightServer bytes where
  world := .fresh bytes defaultReplayWindowSeconds
  pending := []
  granted := []

theorem FirstFlightServer.initial_fresh (bytes : ℕ+) :
    (FirstFlightServer.fresh bytes).Initial :=
  ⟨ReplayWorld.initial_fresh bytes _, rfl, rfl⟩

theorem lateHistory_grants_twice :
    ∃ server, (firstFlightSystem .transparent KeyId 4 30).Reachable server ∧
      ¬SaltsDistinct server.granted := by
  have hrun :
      (lateHistory.foldlM (FirstFlightServer.step .transparent 30)
        (.fresh 4)).map FirstFlightServer.granted =
      some [⟨KeyId.fromU64 7, prefixSalt lateRemainder, 1200⟩,
        ⟨KeyId.fromU64 7, prefixSalt lateRemainder, 599⟩] := by
    decide +kernel
  obtain ⟨server, hfold, hgranted⟩ := Option.map_eq_some_iff.mp hrun
  refine ⟨server, Transition.System.reachable_of_foldlM
    (fun _ _ _ hstep => hstep) (FirstFlightServer.initial_fresh 4) hfold, ?_⟩
  simp [hgranted, SaltsDistinct]

/-- The copy evaluated in the second of its clock check is refused. -/
theorem saltsDistinct_prompt_copy :
    ∃ server : FirstFlightServer 4, server.granted.length = 1 ∧
      SaltsDistinct server.granted := by
  let history : List (FirstFlightEvent KeyId) :=
    [.arrive lateRemainder 599, .finish 0 liveBody 599 .success .success,
      .arrive lateRemainder 1199, .finish 0 liveBody 1199 .success .success]
  have hrun :
      (history.foldlM (Transition.System.checked EvaluatedInTime
        (FirstFlightServer.step .transparent 30)) (.fresh 4)).map
          (fun server => server.granted.length) = some 1 := by
    decide +kernel
  obtain ⟨server, hfold, hlength⟩ := Option.map_eq_some_iff.mp hrun
  exact ⟨server, hlength, saltsDistinct_of_reachable
    (Transition.System.reachable_of_foldlM Transition.System.checked_sound
      (FirstFlightServer.initial_fresh 4) hfold)⟩

end PbMapper.Protocol

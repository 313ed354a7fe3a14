import PbMapper.Relay.Iterations

/-!
# The registration map

Registrations are only added by an accepted `Register`, at the end of the list
of their key and with the next generation.  Every other task updates what the
map keeps about a registration, or takes registrations away, so the lists shrink
and the limits checked at insertion hold from then on.
-/

namespace PbMapper.Relay

open RelayState MachineWord

/-! ## Generations -/

/-- Below the last one, generations increase. -/
def Increasing (generations : List ℕ) : Prop :=
  (generations.filter (· < u64Max)).Pairwise (· < ·)

/-- The generations given out so far, below the last one, precede `next`. -/
def Precede (generations : List ℕ) (next : ℕ) : Prop :=
  ∀ generation ∈ generations, generation < u64Max → generation < next

/-- The generation after `generation`. -/
def nextGeneration (generation : ℕ) : ℕ := max (satAdd u64Max generation 1) 1

section Generations

variable {generations fewer : List ℕ} {next : ℕ}

theorem Increasing.sublist (hincreasing : Increasing generations)
    (hsublist : fewer.Sublist generations) : Increasing fewer :=
  List.Pairwise.sublist (hsublist.filter _) hincreasing

theorem Increasing.push (hincreasing : Increasing generations)
    (hprecede : Precede generations next) :
    Increasing (generations ++ [next]) := by
  rw [Increasing, List.filter_append, List.pairwise_append]
  refine ⟨hincreasing, ?_, fun old hold new hnew => ?_⟩
  · exact (List.pairwise_singleton _ _).sublist List.filter_sublist
  · obtain ⟨hmem, hlt⟩ := List.mem_filter.mp hold
    rw [List.mem_singleton.mp (List.mem_of_mem_filter hnew)]
    exact hprecede old hmem (by simpa using hlt)

theorem lt_nextGeneration (hlt : next < u64Max) : next < nextGeneration next := by
  simp only [nextGeneration, satAdd]
  omega

theorem le_nextGeneration (hle : next ≤ u64Max) :
    next ≤ nextGeneration next ∧ nextGeneration next ≤ u64Max := by
  simp only [nextGeneration, satAdd, u64Max]
  rw [u64Max] at hle
  omega

theorem Precede.push (hprecede : Precede generations next)
    (hle : next ≤ u64Max) :
    Precede (generations ++ [next]) (nextGeneration next) := by
  intro generation hmem hlt
  rcases List.mem_append.mp hmem with hold | hnew
  · exact (hprecede generation hold hlt).trans_le (le_nextGeneration hle).1
  · rw [List.mem_singleton.mp hnew] at hlt ⊢
    exact lt_nextGeneration hlt

end Generations

/-! ## Shrinking -/

/-- What of a registration never changes. -/
def ServerConnInfo.fixed (info : ServerConnInfo) : ℕ × Bool :=
  (info.generation, info.isDatagram)

/-- The lists lose registrations, and keys that have none. -/
structure Shrinks (before after : ServerConnMap) : Prop where
  sublist : ∀ key, ((registrations after key).map (·.fixed)).Sublist
    ((registrations before key).map (·.fixed))
  nonempty : (∀ key, before.lookup key ≠ some []) →
    ∀ key, after.lookup key ≠ some []
  keys : ∀ accepts : ImutableKey → Bool,
    after.keys.countP accepts ≤ before.keys.countP accepts

namespace Shrinks

variable {first middle last before : ServerConnMap} {key : ImutableKey}

theorem refl : Shrinks before before :=
  ⟨fun _ => List.Sublist.refl _, id, fun _ => le_rfl⟩

theorem trans (hfirst : Shrinks first middle) (hlast : Shrinks middle last) :
    Shrinks first last where
  sublist key := (hlast.sublist key).trans (hfirst.sublist key)
  nonempty hbefore := hlast.nonempty (hfirst.nonempty hbefore)
  keys accepts := (hlast.keys accepts).trans (hfirst.keys accepts)

/-- A shorter list for a key that is there. -/
theorem insert {infos : List ServerConnInfo}
    (hlookup : before.lookup key ≠ none)
    (hsublist : (infos.map (·.fixed)).Sublist
      ((registrations before key).map (·.fixed)))
    (hne : (∀ key, before.lookup key ≠ some []) → infos ≠ []) :
    Shrinks before (before.insert key infos) where
  sublist other := by
    rw [registrations_insert]
    split
    · rename_i heq
      rw [heq]
      exact hsublist
    · exact List.Sublist.refl _
  nonempty hbefore other := by
    rw [Table.lookup_insert]
    split
    · exact fun heq => hne hbefore (Option.some.inj heq)
    · exact hbefore other
  keys accepts := (Table.countP_keys_insert_of_mem hlookup infos).le

theorem removeServerConn (connId : RemoteConnId) :
    Shrinks before (removeServerConn before key connId) := by
  unfold Relay.removeServerConn
  cases hlookup : before.lookup key with
  | none => exact .refl
  | some infos =>
      have hinfos := registrations_of_lookup hlookup
      dsimp only
      split
      · exact .refl
      · split
        · refine ⟨fun other => ?_, fun hbefore other => ?_, fun accepts =>
            Table.countP_keys_erase_le key⟩
          · rw [registrations_erase]
            split
            · exact List.nil_sublist _
            · exact List.Sublist.refl _
          · rw [Table.lookup_erase]
            split
            · exact nofun
            · exact hbefore other
        · rename_i hne
          refine insert (by simp [hlookup]) ?_ fun _ => hne
          rw [hinfos]
          exact List.eraseP_sublist.map _

theorem updateServerConn {predicate : ServerConnInfo → Bool}
    {update : ServerConnInfo → ServerConnInfo}
    (hfixed : ∀ info, (update info).fixed = info.fixed) :
    Shrinks before (updateServerConn before key predicate update) := by
  unfold Relay.updateServerConn
  cases hlookup : before.lookup key with
  | none => exact .refl
  | some infos =>
      have hmap := map_updateFirst predicate update (·.fixed) hfixed infos
      refine insert (by simp [hlookup]) ?_ fun hbefore hnil => ?_
      · rw [registrations_of_lookup hlookup, hmap]
      · rw [hnil] at hmap
        rw [List.map_eq_nil_iff.mp hmap.symm] at hlookup
        exact hbefore key hlookup

theorem updateAnyServerConn {predicate : ServerConnInfo → Bool}
    {update : ServerConnInfo → ServerConnInfo}
    (hfixed : ∀ info, (update info).fixed = info.fixed) :
    Shrinks before (updateAnyServerConn before predicate update) := by
  unfold Relay.updateAnyServerConn
  split
  · exact .refl
  · exact updateServerConn hfixed

end Shrinks

/-! ## Tasks -/

/-- The generation a confirmation gives out. -/
def Outcome.granted : Outcome → List ℕ
  | .send ⟨_, .registerResp generation _ _, _⟩ => [generation]
  | _ => []

namespace Manager

variable {settings : Settings} {now : Instant} {manager : Manager}

theorem shrinks_selectServer (manager : Manager)
    (subscription : Subscription) (list : List ServerConnInfo) :
    Shrinks manager.serverConnMap
      (manager.selectServer subscription list).1.serverConnMap := by
  induction list generalizing manager with
  | nil => exact .refl
  | cons candidate rest ih =>
      unfold selectServer
      split
      · have hdropped : Shrinks manager.serverConnMap
            (manager.dropServerConn subscription.key
              candidate.connId).serverConnMap :=
          .removeServerConn candidate.connId
        exact hdropped.trans (ih _)
      · exact .refl

theorem shrinks_releaseNamespaceRateLimitIfIdle (nameSpace : UInt64) :
    (manager.releaseNamespaceRateLimitIfIdle nameSpace).serverConnMap =
        manager.serverConnMap ∧
      (manager.releaseNamespaceRateLimitIfIdle
        nameSpace).nextServerGeneration = manager.nextServerGeneration := by
  unfold releaseNamespaceRateLimitIfIdle
  dsimp only
  split <;> exact ⟨rfl, rfl⟩

/-- The lists shrink and no generation is given out. -/
structure Unregistering (before after : Manager) : Prop where
  shrinks : Shrinks before.serverConnMap after.serverConnMap
  nextServerGeneration :
    after.nextServerGeneration = before.nextServerGeneration

theorem unregistering_deRegisterServerConn (key : ImutableKey)
    (connId : RemoteConnId) :
    Unregistering manager (manager.deRegisterServerConn key connId) := by
  obtain ⟨hmap, hnext⟩ := (manager.dropServerConn key
    connId).shrinks_releaseNamespaceRateLimitIfIdle (keyNamespace key)
  refine ⟨?_, hnext⟩
  rw [deRegisterServerConn, hmap]
  exact .removeServerConn connId

theorem unregistering_deRegisterClientConn (serverId : Option RemoteConnId)
    (clientId : RemoteConnId) :
    Unregistering manager (manager.deRegisterClientConn serverId clientId) := by
  have hremoved : (manager.removePendingStream clientId).serverConnMap =
        manager.serverConnMap ∧
      (manager.removePendingStream clientId).nextServerGeneration =
        manager.nextServerGeneration := by
    unfold removePendingStream
    split <;> exact ⟨rfl, rfl⟩
  have hderegistered : ∀ withoutServer : Manager,
      withoutServer.serverConnMap = manager.serverConnMap ∧
        withoutServer.nextServerGeneration = manager.nextServerGeneration →
      Unregistering manager
        ((manager.pendingStreams.lookup clientId).elim
          (withoutServer.deregisterConn clientId) fun pending =>
            (withoutServer.deregisterConn
              clientId).releaseNamespaceRateLimitIfIdle
                (keyNamespace pending.key)) := by
    rintro withoutServer ⟨hmap, hnext⟩
    cases manager.pendingStreams.lookup clientId
    · exact ⟨hmap ▸ .refl, hnext⟩
    · obtain ⟨hmap', hnext'⟩ := (withoutServer.deregisterConn
        clientId).shrinks_releaseNamespaceRateLimitIfIdle _
      exact ⟨(hmap'.trans hmap) ▸ .refl, hnext'.trans hnext⟩
  rw [deRegisterClientConn_eq]
  cases serverId with
  | none => exact hderegistered _ hremoved
  | some serverId =>
      exact hderegistered
        ((manager.removePendingStream clientId).deregisterConn serverId)
        hremoved

/-- Only an accepted registration adds to the map, and gives out a
generation. -/
theorem handle_registrations (task : ManagerTask) :
    Unregistering manager (manager.handle settings now task).1 ∧
        (manager.handle settings now task).2.granted = [] ∨
      ∃ key connId needCodec isDatagram protocolVersion connSender info,
        task = .register key connId needCodec isDatagram protocolVersion
          connSender ∧
        manager.registerFailure settings key isDatagram = none ∧
        info.fixed = (manager.nextServerGeneration, isDatagram) ∧
        (manager.handle settings now task).1.serverConnMap =
          manager.serverConnMap.insert key
            (registrations manager.serverConnMap key ++ [info]) ∧
        (manager.handle settings now task).1.nextServerGeneration =
          nextGeneration manager.nextServerGeneration ∧
        (manager.handle settings now task).2.granted =
          [manager.nextServerGeneration] := by
  cases task with
  | accept | status | shutdown => exact .inl ⟨⟨.refl, rfl⟩, rfl⟩
  | serverConnActivity key connId =>
      exact .inl ⟨⟨.updateServerConn fun _ => rfl, rfl⟩, rfl⟩
  | deRegisterServerConn key connId =>
      exact .inl ⟨unregistering_deRegisterServerConn key connId, rfl⟩
  | retireServerConn key connId reason =>
      refine .inl ⟨unregistering_deRegisterServerConn key connId, ?_⟩
      simp only [handle, retireServerConn]
      split <;> rfl
  | deRegisterClientConn serverId clientId =>
      exact .inl ⟨unregistering_deRegisterClientConn serverId clientId, rfl⟩
  | register key connId needCodec isDatagram protocolVersion connSender =>
      simp only [handle, register]
      split
      · exact .inl ⟨⟨.refl, rfl⟩, rfl⟩
      · rename_i hfailure
        exact .inr ⟨key, connId, needCodec, isDatagram, protocolVersion,
          connSender, _, rfl, hfailure, rfl, rfl, rfl, rfl⟩
  | stream key stream serverId clientId serverGeneration =>
      simp only [handle, Manager.stream, sendToClient]
      repeat' split
      all_goals first
        | exact .inl ⟨⟨.refl, rfl⟩, rfl⟩
        | exact .inl ⟨⟨.updateAnyServerConn fun _ => rfl, rfl⟩, rfl⟩
  | streamAck serverId clientId serverGeneration =>
      have hrecorded : Shrinks manager.serverConnMap
          (recordServerConnActivityByConnId now manager.serverConnMap
            serverId) := .updateAnyServerConn fun _ => rfl
      simp only [handle, Manager.streamAck, sendToClient]
      repeat' split
      all_goals first
        | exact .inl ⟨⟨hrecorded, rfl⟩, rfl⟩
        | exact .inl
            ⟨⟨hrecorded.trans (.updateAnyServerConn fun _ => rfl), rfl⟩, rfl⟩
  | subcribe key connId connSender excluded =>
      obtain ⟨limits, ⟨message, hrefusal, hsubcribe⟩ | ⟨selected, hselected,
        hsubcribe⟩⟩ := manager.subcribe_cases settings now
          ⟨key, connId, connSender, excluded⟩
      · simp only [handle, hsubcribe]
        refine .inl ⟨⟨.refl, rfl⟩, ?_⟩
        cases message <;> first | rfl | cases hrefusal
      · subst hselected
        simp only [handle, hsubcribe]
        obtain ⟨hpruned, hout⟩ := selectServer_cases
          { manager with namespaceRateLimits := limits }
          ⟨key, connId, connSender, excluded⟩
          (candidates ⟨key, connId, connSender, excluded⟩
            (registrations manager.serverConnMap key))
        refine .inl ⟨⟨shrinks_selectServer
          { manager with namespaceRateLimits := limits } _ _,
            hpruned.nextServerGeneration⟩, ?_⟩
        rcases hout with ⟨reason, hout⟩ | ⟨candidate, rest, channel, -, -, hout⟩
        · rw [hout]
          simp only [subcribeRejected]
          split <;> rfl
        · rw [hout]
          rfl

/-- The rest of a task adds nothing to the map. -/
theorem resume_registrations (sent : Bool) (resume : Resume) :
    Unregistering manager (manager.resume sent resume).1 := by
  cases resume with
  | done => exact ⟨.refl, rfl⟩
  | subcribeResp connId => cases sent <;> exact ⟨.refl, rfl⟩
  | streamReq subscription candidate rest =>
      cases sent with
      | true => exact ⟨.refl, rfl⟩
      | false =>
          obtain ⟨hpruned, -⟩ := selectServer_cases
            (manager.dropServerConn subscription.key candidate.connId)
            subscription rest
          have hdropped : Shrinks manager.serverConnMap
              (manager.dropServerConn subscription.key
                candidate.connId).serverConnMap :=
            .removeServerConn candidate.connId
          exact ⟨hdropped.trans (shrinks_selectServer _ subscription rest),
            hpruned.nextServerGeneration⟩

/-- A refused registration changes nothing. -/
theorem handle_registerFailed {task : ManagerTask} {channel : Socket}
    {code reason : String} {retryable : Bool} {resume : Resume}
    (houtcome : (manager.handle settings now task).2 =
      .send ⟨channel, .registerFailed code reason retryable, resume⟩) :
    (manager.handle settings now task).1 = manager := by
  cases task with
  | register key connId needCodec isDatagram protocolVersion connSender =>
      simp only [handle, register] at houtcome ⊢
      split at houtcome
      · rfl
      · cases houtcome
  | retireServerConn key connId reason =>
      simp only [handle, retireServerConn] at houtcome
      split at houtcome <;> cases houtcome
  | stream key stream serverId clientId serverGeneration =>
      simp only [handle, Manager.stream, sendToClient] at houtcome
      repeat' split at houtcome
      all_goals cases houtcome
  | streamAck serverId clientId serverGeneration =>
      simp only [handle, Manager.streamAck, sendToClient] at houtcome
      repeat' split at houtcome
      all_goals cases houtcome
  | subcribe key connId connSender excluded =>
      obtain ⟨limits, ⟨message, hrefusal, hsubcribe⟩ | ⟨selected, hselected,
        hsubcribe⟩⟩ := manager.subcribe_cases settings now
          ⟨key, connId, connSender, excluded⟩
      · simp only [handle, hsubcribe] at houtcome
        cases houtcome
        cases hrefusal
      · subst hselected
        simp only [handle, hsubcribe] at houtcome
        have hout := Outcome.send.inj houtcome
        obtain ⟨-, ⟨reason, hrejected⟩ | ⟨candidate, rest, channel, -, -,
          hrequested⟩⟩ := selectServer_cases
            { manager with namespaceRateLimits := limits }
            ⟨key, connId, connSender, excluded⟩
            (candidates ⟨key, connId, connSender, excluded⟩
              (registrations manager.serverConnMap key))
        · have hrefusal := isRefusal_subcribeRejected
            ⟨key, connId, connSender, excluded⟩ reason
          rw [← hrejected, hout] at hrefusal
          cases hrefusal
        · rw [hrequested] at hout
          cases hout
  | _ => cases houtcome

end Manager

/-! ## The invariant -/

/-- What holds of the map, where `next` is the next generation. -/
structure MapKept (settings : Settings) (serverConnMap : ServerConnMap)
    (next : ℕ) : Prop where
  nonempty : ∀ key, serverConnMap.lookup key ≠ some []
  transport : ∀ key, ∀ first ∈ registrations serverConnMap key,
    ∀ second ∈ registrations serverConnMap key,
      first.isDatagram = second.isDatagram
  increasing : ∀ key,
    Increasing ((registrations serverConnMap key).map (·.generation))
  precede : ∀ key,
    Precede ((registrations serverConnMap key).map (·.generation)) next
  connections : ∀ key, (registrations serverConnMap key).length ≤
    settings.maxRegisterConnectionsPerService
  services : ∀ nameSpace,
    serverConnMap.keys.countP (keyNamespace · == nameSpace) ≤
      settings.maxServicesPerNamespace

section Kept

variable {settings : Settings} {before after : ServerConnMap} {next : ℕ}

theorem MapKept.shrinks (hkept : MapKept settings before next)
    (hshrinks : Shrinks before after) : MapKept settings after next := by
  have hgenerations : ∀ key,
      ((registrations after key).map (·.generation)).Sublist
        ((registrations before key).map (·.generation)) := by
    intro key
    have hmap := (hshrinks.sublist key).map Prod.fst
    rw [List.map_map, List.map_map] at hmap
    exact hmap
  have horigin : ∀ key, ∀ info ∈ registrations after key,
      ∃ old ∈ registrations before key, old.isDatagram = info.isDatagram := by
    intro key info hinfo
    have hmem := (hshrinks.sublist key).subset (List.mem_map_of_mem hinfo)
    obtain ⟨old, hold, hfixed⟩ := List.mem_map.mp hmem
    exact ⟨old, hold, congrArg Prod.snd hfixed⟩
  refine ⟨hshrinks.nonempty hkept.nonempty, fun key first hfirst second hsecond =>
    ?_, fun key => (hkept.increasing key).sublist (hgenerations key),
    fun key generation hmem =>
      hkept.precede key generation ((hgenerations key).subset hmem),
    fun key => ?_, fun nameSpace => (hshrinks.keys _).trans
      (hkept.services nameSpace)⟩
  · obtain ⟨oldFirst, hold, heq⟩ := horigin key first hfirst
    obtain ⟨oldSecond, hold', heq'⟩ := horigin key second hsecond
    rw [← heq, ← heq']
    exact hkept.transport key oldFirst hold oldSecond hold'
  · have hlength := (hshrinks.sublist key).length_le
    simp only [List.length_map] at hlength
    exact hlength.trans (hkept.connections key)

/-- What an accepted registration has passed. -/
theorem registerFailure_eq_none {manager : Manager} {key : ImutableKey}
    {isDatagram : Bool}
    (hlimit : 0 < settings.maxRegisterConnectionsPerService)
    (hnone : manager.registerFailure settings key isDatagram = none) :
    (∀ info ∈ (registrations manager.serverConnMap key).head?,
        info.isDatagram = isDatagram) ∧
      (registrations manager.serverConnMap key).length <
        settings.maxRegisterConnectionsPerService ∧
      (manager.serverConnMap.lookup key = none →
        manager.serverConnMap.keys.countP
          (keyNamespace · == keyNamespace key) <
            settings.maxServicesPerNamespace) := by
  unfold Manager.registerFailure at hnone
  cases hlookup : manager.serverConnMap.lookup key with
  | none =>
      rw [hlookup] at hnone
      simp only [Option.any_none, Bool.false_eq_true, if_false,
        Option.isNone_none] at hnone
      split at hnone
      · cases hnone
      · rename_i hroom
        rw [registrations, hlookup]
        refine ⟨fun _ hinfo => ?_, hlimit, fun _ => by simpa using hroom⟩
        cases hinfo
  | some infos =>
      rw [hlookup] at hnone
      simp only [Option.any_some] at hnone
      rw [registrations_of_lookup hlookup]
      split at hnone
      · cases hnone
      · rename_i hsame
        split at hnone
        · cases hnone
        · rename_i hroom
          refine ⟨fun info hinfo => ?_, by simpa using hroom,
            fun hnone => by cases hnone⟩
          rw [Option.mem_def.mp hinfo] at hsame
          simpa using hsame

theorem MapKept.push {manager : Manager} {key : ImutableKey}
    {isDatagram : Bool} {info : ServerConnInfo}
    (hkept : MapKept settings manager.serverConnMap
      manager.nextServerGeneration)
    (hnext : manager.nextServerGeneration ≤ u64Max)
    (hlimit : 0 < settings.maxRegisterConnectionsPerService)
    (hnone : manager.registerFailure settings key isDatagram = none)
    (hfixed : info.fixed = (manager.nextServerGeneration, isDatagram)) :
    MapKept settings
      (manager.serverConnMap.insert key
        (registrations manager.serverConnMap key ++ [info]))
      (nextGeneration manager.nextServerGeneration) := by
  obtain ⟨hgeneration, hdatagram⟩ := Prod.mk.inj hfixed
  obtain ⟨hhead, hroom, hservices⟩ := registerFailure_eq_none hlimit hnone
  have hsame : ∀ old ∈ registrations manager.serverConnMap key,
      old.isDatagram = isDatagram := by
    intro old hold
    cases hlist : registrations manager.serverConnMap key with
    | nil =>
        rw [hlist] at hold
        cases hold
    | cons first rest =>
        rw [hlist] at hhead
        rw [← hhead first rfl]
        exact hkept.transport key old hold first
          (hlist ▸ List.mem_cons_self ..)
  have hnew : ∀ other ∈ registrations manager.serverConnMap key ++ [info],
      other.isDatagram = isDatagram := by
    intro other hother
    rcases List.mem_append.mp hother with hold | hlast
    · exact hsame other hold
    · rw [List.mem_singleton.mp hlast]
      exact hdatagram
  refine ⟨fun other => ?_, fun other => ?_, fun other => ?_, fun other => ?_,
    fun other => ?_, fun nameSpace => ?_⟩
  · rw [Table.lookup_insert]
    split
    · simp
    · exact hkept.nonempty other
  · rw [registrations_insert]
    split
    · intro first hfirst second hsecond
      rw [hnew first hfirst, hnew second hsecond]
    · exact hkept.transport other
  · rw [registrations_insert]
    split
    · rw [List.map_append, List.map_singleton, hgeneration]
      exact (hkept.increasing key).push (hkept.precede key)
    · exact hkept.increasing other
  · rw [registrations_insert]
    split
    · rw [List.map_append, List.map_singleton, hgeneration]
      exact (hkept.precede key).push hnext
    · intro generation hmem hlt
      exact (hkept.precede other generation hmem hlt).trans_le
        (le_nextGeneration hnext).1
  · rw [registrations_insert]
    split
    · rw [List.length_append, List.length_singleton]
      exact hroom
    · exact hkept.connections other
  · cases hlookup : manager.serverConnMap.lookup key with
    | none =>
        refine (Table.countP_keys_insert_le key _).trans ?_
        have hbefore := hkept.services nameSpace
        split
        · rename_i heq
          have hlt := hservices hlookup
          rw [beq_iff_eq.mp heq] at hlt
          exact hlt
        · exact hbefore
    | some infos =>
        rw [Table.countP_keys_insert_of_mem (by simp [hlookup])]
        exact hkept.services nameSpace

end Kept

/-! ## Runs -/

/-- The registration map with the generations given out so far: no list is
empty, the registrations of a key share their transport, generations increase
along every list and along the run, the limits hold, and a refused registration
changes nothing. -/
structure RegistrationsKept (settings : Settings) (manager : Manager)
    (log : List ℕ) : Prop where
  nonempty : ∀ key, manager.serverConnMap.lookup key ≠ some []
  transport : ∀ key, ∀ first ∈ registrations manager.serverConnMap key,
    ∀ second ∈ registrations manager.serverConnMap key,
      first.isDatagram = second.isDatagram
  increasing : ∀ key, Increasing
    ((registrations manager.serverConnMap key).map (·.generation))
  distinct : Increasing log
  connections : ∀ key, (registrations manager.serverConnMap key).length ≤
    settings.maxRegisterConnectionsPerService
  services : ∀ nameSpace,
    manager.serverConnMap.keys.countP (keyNamespace · == nameSpace) ≤
      settings.maxServicesPerNamespace
  refused : ∀ now task channel code reason retryable resume,
    (manager.handle settings now task).2 =
        .send ⟨channel, .registerFailed code reason retryable, resume⟩ →
      (manager.handle settings now task).1 = manager

/-- The invariant behind it. -/
structure MapLogged (settings : Settings) (manager : Manager)
    (log : List ℕ) : Prop where
  map : MapKept settings manager.serverConnMap manager.nextServerGeneration
  bounded : manager.nextServerGeneration ≤ u64Max
  increasing : Increasing log
  precede : Precede log manager.nextServerGeneration

/-- The generations a run gives out. -/
def granted (settings : Settings) : RelayState → Event → List ℕ :=
  RelayState.handling fun manager now task =>
    (manager.handle settings now task).2.granted

section Runs

variable {settings : Settings} {log : List ℕ}

theorem MapLogged.unregisters {before after : Manager}
    (hlogged : MapLogged settings before log)
    (hafter : Manager.Unregistering before after) :
    MapLogged settings after log where
  map := by
    rw [hafter.nextServerGeneration]
    exact hlogged.map.shrinks hafter.shrinks
  bounded := by
    rw [hafter.nextServerGeneration]
    exact hlogged.bounded
  increasing := hlogged.increasing
  precede := by
    rw [hafter.nextServerGeneration]
    exact hlogged.precede

theorem mapLogged_init : MapLogged settings .new [] where
  map := ⟨fun _ hlookup => by (cases hlookup),
    fun _ _ hfirst => absurd hfirst List.not_mem_nil, fun _ => .nil,
    fun _ _ hgeneration => absurd hgeneration List.not_mem_nil,
    fun _ => Nat.zero_le _, fun _ => Nat.zero_le _⟩
  bounded := by decide
  increasing := .nil
  precede _ hgeneration := absurd hgeneration List.not_mem_nil

theorem mapLogged_handle {manager : Manager} (now : Instant)
    (task : ManagerTask)
    (hlimit : 0 < settings.maxRegisterConnectionsPerService)
    (hlogged : MapLogged settings manager log) :
    MapLogged settings (manager.handle settings now task).1
      (log ++ (manager.handle settings now task).2.granted) := by
  rcases manager.handle_registrations task with
    ⟨hunregistering, hnone⟩ | ⟨key, _, _, isDatagram, _, _, info, -, hfailure,
      hfixed, hmap, hnext, hgranted⟩
  · rw [hnone, List.append_nil]
    exact hlogged.unregisters hunregistering
  · rw [hgranted]
    refine ⟨?_, ?_, hlogged.increasing.push hlogged.precede, ?_⟩
    · rw [hmap, hnext]
      exact hlogged.map.push hlogged.bounded hlimit hfailure hfixed
    · rw [hnext]
      exact (le_nextGeneration hlogged.bounded).2
    · rw [hnext]
      exact hlogged.precede.push hlogged.bounded

/-- In every run the registration map keeps its invariants. -/
theorem registrationsKept_of_reachable
    (maxServices maxRegisterConnections maxStreams newStreams burst : Option ℕ)
    (serverLeaseTimeoutMs : ℕ) {relay : RelayState} {log : List ℕ}
    (hreachable :
      let settings := Settings.fromEnv maxServices maxRegisterConnections
        maxStreams newStreams burst serverLeaseTimeoutMs
      ((relaySystem settings).logging (granted settings)).Reachable
        (relay, log)) :
    RegistrationsKept (.fromEnv maxServices maxRegisterConnections maxStreams
      newStreams burst serverLeaseTimeoutMs) relay.manager log := by
  generalize hsettings : Settings.fromEnv maxServices maxRegisterConnections
    maxStreams newStreams burst serverLeaseTimeoutMs = settings at hreachable ⊢
  have hlimit : 0 < settings.maxRegisterConnectionsPerService := by
    rw [← hsettings]
    exact envLimit_pos (by decide)
  have hunrestricted : (((relaySystem settings).restrict
      fun _ _ => True).logging (granted settings)).Reachable (relay, log) := by
    refine hreachable.mono ?_ ?_
    · exact fun _ hinitial => hinitial
    · rintro before event after ⟨hstep, hlog⟩
      exact ⟨⟨trivial, hstep⟩, hlog⟩
  have hlogged : MapLogged settings relay.manager log := by
    refine loggedInvariant_of_reachable
      (motive := fun manager _ _ log => MapLogged settings manager log)
      mapLogged_init ?_ ?_ hunrestricted
    · exact fun relay now envelope _ log _ _ _ _ hbefore =>
        mapLogged_handle now envelope.task hlimit hbefore
    · exact fun relay sender outgoing sent log _ _ _ hbefore =>
        hbefore.unregisters (Manager.resume_registrations sent outgoing.resume)
  exact ⟨hlogged.map.nonempty, hlogged.map.transport, hlogged.map.increasing,
    hlogged.increasing, hlogged.map.connections, hlogged.map.services,
    fun _ _ _ _ _ _ _ => Manager.handle_registerFailed⟩

/-- Two providers of a service and one of another get three generations. -/
def threeProviders : List Event :=
  connect 0 (adminRequest (.register ['a'] false false none)) ++ [.send] ++
    connect 1 (adminRequest (.register ['a'] false false none)) ++ [.send] ++
    connect 2 (guestRequest (.register ['b'] false true none)) ++ [.send]

theorem registrationsKept_three_providers :
    ∃ manager, RegistrationsKept
      (.fromEnv none none none none none 15000) manager [1, 2, 3] := by
  have hrun : (threeProviders.foldlM (Transition.System.logged
      (granted (.fromEnv none none none none none 15000))
      (RelayState.step (.fromEnv none none none none none 15000)))
        (RelayState.init, [])).map Prod.snd = some [1, 2, 3] := by
    decide +kernel
  obtain ⟨⟨relay, log⟩, hfold, rfl⟩ := Option.map_eq_some_iff.mp hrun
  refine ⟨relay.manager, registrationsKept_of_reachable none none none none none
    15000 (Transition.System.reachable_of_foldlM
      (Transition.System.logged_sound fun _ _ _ hstep => hstep) ?_ hfold)⟩
  exact ⟨rfl, rfl⟩

end Runs

end PbMapper.Relay

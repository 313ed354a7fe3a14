import PbMapper.Auth.SyncedMoves

/-!
# Key ids are issued once

The generations of a directory never go back, over all servers that run on it, so
a key id that was issued once is not issued again.
-/

namespace PbMapper.Auth

open PbMapper.Core MachineWord Effect

variable {crypto : AuthCrypto} {history next : AuthHistory} {index : ℕ}
  {generation : Generation}

/-! ## Steps -/

/-- The random id a reset draws. -/
def AuthEvent.drawnId : AuthEvent → Option InstanceId
  | .command env _ .reset _ => some env.newInstanceId
  | _ => none

namespace AuthHistory

/-- The row has at least this generation, now and after a restart. -/
def Reaches (history : AuthHistory) (index : ℕ) (generation : Generation) : Prop :=
  history.server.elim (history.dir.Retains index generation) fun server =>
    generation.asU32 ≤ (server.memory.generationAt index).asU32

/-- The directory is in step with the server that runs on it. -/
structure InStep (history : AuthHistory) : Prop where
  synced : ∀ server, history.server = some server → server.memory.Synced history.dir
  settled : ∀ server, history.server = some server → server.memory.Settled history.dir

/-- The random ids are fresh: a reset draws another one than that of the server. -/
def freshIds (history : AuthHistory) (event : AuthEvent) : Bool :=
  event.drawnId.all fun id =>
    history.server.all (·.memory.inner.instanceId != id)

theorem reaches_running {dir : StateDir} {server : AuthServer}
    {records : List AuthRecord} :
    Reaches ⟨dir, some server, records⟩ index generation ↔
      generation.asU32 ≤ (server.memory.generationAt index).asU32 := Iff.rfl

theorem Reaches.server (hreaches : history.Reaches index generation)
    {server : AuthServer} (hserver : history.server = some server) :
    generation.asU32 ≤ (server.memory.generationAt index).asU32 := by
  rw [Reaches, hserver] at hreaches
  exact hreaches

theorem inStep_idle {dir : StateDir} {records : List AuthRecord} :
    InStep ⟨dir, none, records⟩ where
  synced _ hserver := by cases hserver
  settled _ hserver := by cases hserver

theorem inStep_running {dir : StateDir} {server : AuthServer}
    {records : List AuthRecord} (hsynced : server.memory.Synced dir)
    (hsettled : server.memory.Settled dir) :
    InStep ⟨dir, some server, records⟩ where
  synced _ hserver := by
    cases hserver
    exact hsynced
  settled _ hserver := by
    cases hserver
    exact hsettled

/-- The step of a command, with what it does and what it has in place. -/
theorem command_step {env : Surroundings} {authority : LeaseId}
    {command : AuthCommand} {outcomes : List FileOutcome}
    (hstep :
      history.step crypto (.command env authority command outcomes) = some next) :
    ∃ server ended world, history.server = some server ∧
      CommandMove crypto server.config env server.memory history.dir command ended
        world.memory world.files.dir ∧
      (∀ response, ended = .ok response →
        Reinstalled env server.memory world.files.dir command) ∧
      next = history.finish server.config
        (fun answer => [.answered (env.clock 0) command answer]) (ended, world) := by
  obtain ⟨server, hserver, hnext⟩ := Option.bind_eq_some_iff.mp hstep
  have hmoves := command_moves crypto server.config env authority command
    ⟨server.memory, ⟨history.dir, outcomes⟩⟩ ⟨rfl, rfl⟩
  have hinstalls := command_installs crypto server.config env authority command
    ⟨server.memory, ⟨history.dir, outcomes⟩⟩ ⟨rfl, rfl⟩
  cases hexec : (actorCommand crypto server.config env authority command).exec
      ⟨server.memory, ⟨history.dir, outcomes⟩⟩ with
  | mk ended world =>
      rw [hexec] at hmoves hinstalls
      refine ⟨server, ended, world, hserver, ?_, ?_, ?_⟩
      · cases ended with
        | ok response => exact hmoves
        | error stop => exact hmoves
      · rintro response rfl
        exact hinstalls
      · rw [← Option.some.inj hnext, hexec]

/-- The end of a program of the actor, from what it keeps. -/
theorem finish_reaches {Value : Type} {config : AuthConfig} {server : AuthServer}
    {answers : Except AuthFailure Value → List AuthRecord}
    {ended : Except Interruption Value} {world : ActorWorld}
    (hserver : history.server = some server)
    (hsynced : world.memory.Synced world.files.dir)
    (hsettled : ¬Stopped ended → world.memory.Settled world.files.dir)
    (hreached : ∀ index, (server.memory.generationAt index).asU32 ≤
      (world.memory.generationAt index).asU32) :
    (history.finish config answers (ended, world)).InStep ∧
      ∀ index generation, history.Reaches index generation →
        (history.finish config answers (ended, world)).Reaches index generation := by
  have hgoes : ∀ index generation, history.Reaches index generation →
      generation.asU32 ≤ (world.memory.generationAt index).asU32 :=
    fun index generation hreaches => (hreaches.server hserver).trans (hreached index)
  cases ended with
  | ok value =>
      exact ⟨inStep_running hsynced (hsettled fun hstop => by cases hstop), hgoes⟩
  | error stop =>
      cases stop with
      | failed failure =>
          exact ⟨inStep_running hsynced (hsettled fun hstop => by cases hstop), hgoes⟩
      | stopped =>
          exact ⟨inStep_idle, fun index generation hreaches =>
            (hsynced.retains index).mono (hgoes index generation hreaches)⟩

/-- A change of the memory that is no command. -/
theorem quiet_reaches {server : AuthServer} {memory : AuthMemory}
    (hinstep : history.InStep) (hserver : history.server = some server)
    (hquiet : AuthMemory.Quiet server.memory memory)
    (hsettings : memory.settings = server.memory.settings) :
    InStep { history with server := some { server with memory := memory } } ∧
      ∀ index generation, history.Reaches index generation →
        Reaches { history with server := some { server with memory := memory } }
          index generation := by
  have htrimmed := hquiet.trimmed
  refine ⟨inStep_running ((hinstep.synced server hserver).trimmed htrimmed)
    ((hinstep.settled server hserver).trimmed htrimmed
      (congrArg Settings.safeMode hsettings)), fun index generation hreaches => ?_⟩
  rw [reaches_running, htrimmed.generationAt]
  exact hreaches.server hserver

/-- No step takes a generation back. -/
theorem InStep.step {event : AuthEvent} (hinstep : history.InStep)
    (hcoherent : history.Coherent) (hfresh : history.freshIds event = true)
    (hstep : history.step crypto event = some next)
    (hopen : .started true ∉ next.records) :
    next.InStep ∧ ∀ index generation, history.Reaches index generation →
      next.Reaches index generation := by
  cases event with
  | start config env outcomes =>
      cases step_moves hstep with
      | @started _ _ _ memory dir hidle hmove =>
          obtain ⟨hstarts, -⟩ := hmove.synced hcoherent.dir
          have hloaded : memory.inner.safeMode = false := by
            rw [← Bool.not_eq_true]
            intro hsafe
            apply hopen
            rw [hsafe]
            exact List.mem_append_right _ List.mem_cons_self
          obtain ⟨hsynced, hsettled, hkept⟩ := hstarts memory rfl hloaded
          refine ⟨inStep_running hsynced hsettled, fun index generation hreaches => ?_⟩
          rw [Reaches, hidle] at hreaches
          exact hkept index generation hreaches
      | startCut hidle hmove =>
          obtain ⟨-, hkept⟩ := hmove.synced hcoherent.dir
          refine ⟨inStep_idle, fun index generation hreaches => ?_⟩
          rw [Reaches, hidle] at hreaches
          exact hkept index generation hreaches
  | command env authority command outcomes =>
      obtain ⟨server, ended, world, hserver, hmove, hinstalls, rfl⟩ :=
        command_step hstep
      have hdraws : command = .reset →
          env.newInstanceId ≠ server.memory.inner.instanceId := by
        rintro rfl
        rw [freshIds, AuthEvent.drawnId, Option.all_some, hserver, Option.all_some,
          bne_iff_ne] at hfresh
        exact hfresh.symm
      obtain ⟨hsynced, hsettled, hreached⟩ := hmove.synced
        (hcoherent.server server hserver) (hinstep.synced server hserver)
        (hinstep.settled server hserver) hdraws hinstalls
      exact finish_reaches hserver hsynced hsettled hreached
  | tick now outcomes =>
      obtain ⟨server, hserver, hnext⟩ := Option.bind_eq_some_iff.mp hstep
      have hmoves := tick_moves server.config now
        ⟨server.memory, ⟨history.dir, outcomes⟩⟩ ⟨rfl, rfl⟩
      rw [← Option.some.inj hnext]
      cases hexec : (actorTick server.config now).exec
          ⟨server.memory, ⟨history.dir, outcomes⟩⟩ with
      | mk ended world =>
          rw [hexec] at hmoves
          have hmove : TickMove now server.memory history.dir ended world.memory
              world.files.dir := by
            cases ended with
            | ok value => exact hmoves
            | error stop => exact hmoves
          obtain ⟨hsynced, hsettled, hequal⟩ := hmove.synced
            (hinstep.synced server hserver) (hinstep.settled server hserver)
          apply finish_reaches hserver hsynced hsettled
          intro index
          rw [hequal]
  | authenticate keyId presentedKey now =>
      cases step_moves hstep with
      | authenticate hserver =>
          exact quiet_reaches hinstep hserver
            (AuthMemory.quiet_authenticatePresented crypto keyId presentedKey now)
            (AuthMemory.settings_authenticatePresented _ crypto keyId presentedKey now)
  | check check =>
      cases step_moves hstep with
      | check hserver =>
          exact quiet_reaches hinstep hserver (AuthMemory.quiet_check crypto check)
            (AuthMemory.settings_check _ crypto check)
  | stop =>
      cases step_moves hstep with
      | stop hserver =>
          exact ⟨inStep_idle, fun index generation hreaches =>
            ((hinstep.synced _ hserver).retains index).mono (hreaches.server hserver)⟩

/-- The records of a history stay. -/
theorem records_of_kept {event : AuthEvent}
    (hstep : history.step crypto event = some next) :
    history.records <+: next.records := by
  cases step_moves hstep with
  | started => exact List.prefix_append _ _
  | answered => exact List.prefix_append _ _
  | _ => exact List.prefix_rfl

/-! ## Issued keys -/

end AuthHistory

/-- The key that was issued. -/
def AuthRecord.issuedKey : AuthRecord → Option KeyId
  | .answered _ (.issue _ _) (.ok (.issued key)) => some key.metadata.keyId
  | _ => none

theorem AuthRecord.issuedKey_eq_some {record : AuthRecord} {keyId : KeyId}
    (hissued : record.issuedKey = some keyId) :
    ∃ now ttl label key,
      record = .answered now (.issue ttl label) (.ok (.issued key)) ∧
      key.metadata.keyId = keyId := by
  unfold issuedKey at hissued
  split at hissued
  · exact ⟨_, _, _, _, rfl, Option.some.inj hissued⟩
  · cases hissued

/-- Whether this is no start in safe mode. -/
def AuthRecord.opened : AuthRecord → Bool
  | .started safeMode => !safeMode
  | .answered _ _ _ => true

namespace AuthHistory

def issuedKeys (history : AuthHistory) : List KeyId :=
  history.records.filterMap (·.issuedKey)

/-- The earlier key of a slot has the lower generation. -/
def Before (earlier later : KeyId) : Prop :=
  earlier.slot = later.slot → earlier.generation.asU32 < later.generation.asU32

/-- Keys that were issued are in order, and their generations are reached. -/
structure Issued (history : AuthHistory) : Prop where
  inStep : history.InStep
  reached : ∀ keyId ∈ history.issuedKeys,
    history.Reaches keyId.slot.asIndex keyId.generation
  ordered : history.issuedKeys.Pairwise Before

end AuthHistory

theorem metadataWithCredential_keyId {memory : AuthMemory} {keyId : KeyId}
    {reveal : Bool} {key : IssuedTemporaryKey}
    (hmetadata : memory.metadataWithCredential crypto keyId reveal = .ok key) :
    key.metadata.keyId = keyId := by
  rw [AuthMemory.metadataWithCredential] at hmetadata
  cases hslot : memory.slot? keyId.slot.asIndex with
  | some slot =>
      simp only [hslot] at hmetadata
      obtain ⟨-, -, hcold⟩ := Fallible.bind_eq_ok.mp hmetadata
      obtain ⟨cold, -, hkey⟩ := Fallible.bind_eq_ok.mp hcold
      cases hkey
      rfl
  | none =>
      simp only [hslot] at hmetadata
      obtain ⟨entry, hentry, hkey⟩ := Fallible.bind_eq_ok.mp hmetadata
      cases hkey
      rw [AuthMemory.highSlotEntry] at hentry
      split at hentry
      · rename_i found hfound
        cases hentry
        have hsame := List.find?_some hfound
        rw [decide_eq_true_iff] at hsame
        exact hsame
      · cases hentry

/-- A key that is issued has the generation after that of its row. -/
theorem CommandMove.issued {config : AuthConfig} {env : Surroundings}
    {memory last : AuthMemory} {dir dir' : StateDir} {ttl : Duration}
    {label : Option String} {key : IssuedTemporaryKey}
    {ended : Except Interruption AuthResponse} (hended : ended = .ok (.issued key))
    (hmove :
      CommandMove crypto config env memory dir (.issue ttl label) ended last dir')
    (hkept : memory.Kept) :
    key.metadata.keyId.generation.asU32 =
        (memory.generationAt key.metadata.keyId.slot.asIndex).asU32 + 1 ∧
      last.generationAt key.metadata.keyId.slot.asIndex =
        key.metadata.keyId.generation := by
  cases hmove with
  | @appended _ _ _ _ result happends =>
      rcases happends.issue_cases with
        hother | ⟨planned, named, entry, audit, -, -, rfl, hplanned, -, hresult⟩
      · cases happends with
        | issue => exact absurd rfl (hother _ _)
      rw [hresult] at hended
      cases hmetadata : last.metadataWithCredential crypto entry.keyId true with
      | error failure =>
          rw [hmetadata] at hended
          cases hended
      | ok issued =>
          rw [hmetadata] at hended
          cases hended
          rw [metadataWithCredential_keyId hmetadata]
          obtain ⟨free, hslot, -, hnext⟩ := hplanned.slot hkept.owned.size
          rw [AuthMemory.generationAt_of_slot hslot,
            happends.generationAt hkept memory.inner.adminKey, WalFrame.issued,
            if_pos rfl]
          exact ⟨Generation.next_eq_some_iff.mp hnext, rfl⟩
  | _ => cases hended

namespace AuthHistory

/-- The keys a step issues: at most one, by an issue that is answered. -/
theorem issuedKeys_step {event : AuthEvent}
    (hstep : history.step crypto event = some next)
    (hcoherent : history.Coherent) :
    next.issuedKeys = history.issuedKeys ∨
      ∃ keyId server server', history.server = some server ∧
        next.server = some server' ∧ next.issuedKeys = history.issuedKeys ++ [keyId] ∧
        keyId.generation.asU32 =
          (server.memory.generationAt keyId.slot.asIndex).asU32 + 1 ∧
        server'.memory.generationAt keyId.slot.asIndex = keyId.generation := by
  have hadded : ∀ (dir : StateDir) (server : Option AuthServer) (record : AuthRecord),
      issuedKeys ⟨dir, server, history.records ++ [record]⟩ =
        history.issuedKeys ++ record.issuedKey.toList := by
    intro dir server record
    rw [issuedKeys, List.filterMap_append, issuedKeys]
    cases hissued : record.issuedKey with
    | none => rw [List.filterMap_cons_none hissued]; rfl
    | some keyId => rw [List.filterMap_cons_some hissued]; rfl
  cases step_moves hstep with
  | started =>
      left
      exact (hadded _ _ _).trans (List.append_nil _)
  | @answered server env _ command _ result last dir hserver hmove =>
      rw [hadded]
      cases hissued : AuthRecord.issuedKey (.answered (env.clock 0) command result) with
      | none => exact .inl (List.append_nil _)
      | some keyId =>
          right
          obtain ⟨now, ttl, label, key, hrecord, rfl⟩ :=
            AuthRecord.issuedKey_eq_some hissued
          cases hrecord
          obtain ⟨hnext, hpublished⟩ := CommandMove.issued rfl hmove
            (hcoherent.server server hserver)
          exact ⟨_, server, _, hserver, rfl, rfl, hnext, hpublished⟩
  | _ => exact .inl rfl

theorem Issued.step {event : AuthEvent} (hissued : history.Issued)
    (hcoherent : history.Coherent) (hfresh : history.freshIds event = true)
    (hstep : history.step crypto event = some next)
    (hopen : .started true ∉ next.records) : next.Issued := by
  obtain ⟨hinstep, hreaches⟩ := hissued.inStep.step hcoherent hfresh hstep hopen
  rcases issuedKeys_step hstep hcoherent with
    hsame | ⟨keyId, server, server', hserver, hserver', hadded, hnext, hpublished⟩
  · refine ⟨hinstep, ?_, ?_⟩
    · rw [hsame]
      exact fun keyId hkey => hreaches _ _ (hissued.reached keyId hkey)
    · rw [hsame]
      exact hissued.ordered
  · refine ⟨hinstep, ?_, ?_⟩
    · rw [hadded]
      intro other hother
      rcases List.mem_append.mp hother with hold | hnew
      · exact hreaches _ _ (hissued.reached other hold)
      · rw [List.mem_singleton.mp hnew, Reaches, hserver', Option.elim_some,
          hpublished]
    · rw [hadded]
      refine List.pairwise_append.mpr
        ⟨hissued.ordered, List.pairwise_singleton _ _, ?_⟩
      intro earlier hearlier later hlater hslot
      have hreached := (hissued.reached earlier hearlier).server hserver
      rw [List.mem_singleton.mp hlater] at hslot ⊢
      rw [hslot] at hreached
      exact hreached.trans_lt (hnext ▸ Nat.lt_succ_self _)

/-! ## Histories with fresh ids -/

/-- The histories in which a reset draws a fresh id. -/
abbrev freshSystem (crypto : AuthCrypto) : Transition.System AuthHistory AuthEvent :=
  (authSystem crypto).restrict fun history event => history.freshIds event = true

theorem coherent_of_fresh (hreachable : (freshSystem crypto).Reachable history) :
    history.Coherent := by
  have hwithin : (authSystem crypto).Reachable history := by
    refine Transition.System.Reachable.mono ?_ ?_ hreachable
    · exact fun _ hinitial => hinitial
    · exact fun _ _ _ hstep => hstep.2
  exact coherent_of_reachable hwithin

theorem issued_of_reachable (hreachable : (freshSystem crypto).Reachable history)
    (hopen : .started true ∉ history.records) : history.Issued := by
  obtain ⟨start, events, rfl, hrun⟩ := hreachable
  induction hrun with
  | nil =>
      refine ⟨inStep_idle, ?_, List.Pairwise.nil⟩
      exact fun keyId hkey => absurd hkey List.not_mem_nil
  | snoc hrun hstep ih =>
      have hbefore := fun hsafe => hopen ((records_of_kept hstep.2).subset hsafe)
      have hmiddle := coherent_of_fresh ⟨.initial, _, rfl, hrun⟩
      exact (ih hbefore).step hmiddle hstep.1 hstep.2
        hopen

/-- No key id is ever issued twice, over all servers that run on a directory, as
long as none of them starts in safe mode. -/
theorem issuedOnce_of_reachable
    (hreachable : (freshSystem crypto).Reachable history)
    (hopen : .started true ∉ history.records) : history.issuedKeys.Nodup := by
  apply (issued_of_reachable hreachable hopen).ordered.imp
  rintro earlier later hbefore rfl
  exact lt_irrefl _ (hbefore rfl)

/-- Whether no start fell into safe mode so far. -/
def opened (history : AuthHistory) : Bool :=
  history.records.all (·.opened)

theorem not_mem_of_opened (hopened : history.opened = true) :
    .started true ∉ history.records := by
  intro hmem
  cases List.all_eq_true.mp hopened _ hmem

def resume (history : AuthHistory) (events : List AuthEvent) :
    Option AuthHistory :=
  events.foldlM (Transition.System.checked
    (fun history event => history.freshIds event = true)
    (AuthHistory.step .sample)) history

def playFresh (events : List AuthEvent) :
    Option AuthHistory := initial.resume events

theorem reachable_playFresh {events : List AuthEvent} {history : AuthHistory}
    (hplay : playFresh events = some history) :
    (freshSystem .sample).Reachable history :=
  Transition.System.reachable_of_foldlM Transition.System.checked_sound rfl hplay

/-- One row is issued, freed and issued again, and after a restart with another
capacity two keys are issued, with a reset between them. -/
def reissues (capacity restarted : Fin 8) (now : Seconds) : List AuthEvent :=
  [.sampleStart capacity now [],
    .sampleCommand now 0 (.issue (.fromSecs 20) none) [],
    .sampleCommand now 0 (.revoke (.fromU64 (2 ^ 32))) [],
    .sampleCommand now 0 .gc [],
    .sampleCommand now 0 (.issue (.fromSecs 20) none) [], .stop,
    .sampleStart restarted now [],
    .sampleCommand now 0 (.issue (.fromSecs 20) none) [],
    .sampleCommand now 0 .reset [],
    .sampleCommand now 0 (.issue (.fromSecs 20) none) []]

theorem issuedOnce_of_reissues : ∃ history,
    playFresh (reissues 0 1 100) = some history ∧
      history.issuedKeys.map (·.asU64) =
        [2 ^ 32, 2 * 2 ^ 32, 2 ^ 32 + 1, 3 * 2 ^ 32] ∧ history.issuedKeys.Nodup := by
  have hrun : (playFresh (reissues 0 1 100)).map (fun history =>
      (history.issuedKeys.map (·.asU64), history.opened)) =
        some ([2 ^ 32, 2 * 2 ^ 32, 2 ^ 32 + 1, 3 * 2 ^ 32], true) := by
    decide +kernel
  obtain ⟨history, hplay, hended⟩ := Option.map_eq_some_iff.mp hrun
  obtain ⟨hkeys, hopened⟩ := Prod.mk.inj hended
  exact ⟨history, hplay, hkeys,
    issuedOnce_of_reachable (reachable_playFresh hplay) (not_mem_of_opened hopened)⟩

/-- The generation of a row never goes back: not in memory, not at a restart with
another capacity, and the directory of the last server is not behind it. -/
theorem generations_of_run {later : AuthHistory} {events : List AuthEvent}
    (hreachable : (freshSystem crypto).Reachable history)
    (hrun : (freshSystem crypto).Run history events later)
    (hopen : .started true ∉ later.records) {server server' : AuthServer}
    (hserver : history.server = some server)
    (hserver' : later.server = some server') (index : ℕ) :
    (server.memory.generationAt index).asU32 ≤
        (server'.memory.generationAt index).asU32 ∧
      (server'.memory.generationAt index).asU32 ≤
        (later.dir.generationAt index).asU32 := by
  have hlater := issued_of_reachable (hreachable.run hrun) hopen
  have hreaches : later.Reaches index (server.memory.generationAt index) := by
    clear hserver' hlater
    induction hrun with
    | nil =>
        rw [Reaches, hserver]
        exact le_rfl
    | snoc hrun hstep ih =>
        have hbefore := fun hsafe => hopen ((records_of_kept hstep.2).subset hsafe)
        have hmiddle := hreachable.run hrun
        exact ((issued_of_reachable hmiddle hbefore).inStep.step
          (coherent_of_fresh hmiddle) hstep.1 hstep.2 hopen).2 _ _ (ih hbefore)
  exact ⟨hreaches.server hserver',
    (hlater.inStep.synced server' hserver').replayed index⟩

/-- From the first issue of a row to its third, with a restart between. -/
theorem generations_of_reissues :
    ∃ (history later : AuthHistory) (server server' : AuthServer),
    playFresh ((reissues 0 1 100).take 2) = some history ∧ later.opened = true ∧
      history.server = some server ∧ later.server = some server' ∧
      (server.memory.generationAt 0).asU32 = 1 ∧
      (server'.memory.generationAt 0).asU32 = 3 ∧
      (server.memory.generationAt 0).asU32 ≤ (server'.memory.generationAt 0).asU32 ∧
      (server'.memory.generationAt 0).asU32 ≤ (later.dir.generationAt 0).asU32 := by
  have hrun : (playFresh ((reissues 0 1 100).take 2)).bind (fun history =>
      (history.resume ((reissues 0 1 100).drop 2)).bind fun later =>
        history.server.bind fun server => later.server.map fun server' =>
          (later.opened, (server.memory.generationAt 0).asU32,
            (server'.memory.generationAt 0).asU32)) = some (true, 1, 3) := by
    decide +kernel
  obtain ⟨history, hplay, hrest⟩ := Option.bind_eq_some_iff.mp hrun
  obtain ⟨later, hfold, hservers⟩ := Option.bind_eq_some_iff.mp hrest
  obtain ⟨server, hserver, hlast⟩ := Option.bind_eq_some_iff.mp hservers
  obtain ⟨server', hserver', hended⟩ := Option.map_eq_some_iff.mp hlast
  obtain ⟨hopened, hgenerations⟩ := Prod.mk.inj hended
  obtain ⟨hfirst, hthird⟩ := Prod.mk.inj hgenerations
  exact ⟨history, later, server, server', hplay, hopened, hserver, hserver', hfirst,
    hthird, generations_of_run (reachable_playFresh hplay)
      (Transition.System.run_of_foldlM Transition.System.checked_sound hfold)
      (not_mem_of_opened hopened) hserver hserver' 0⟩

end AuthHistory

end PbMapper.Auth

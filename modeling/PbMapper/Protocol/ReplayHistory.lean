import PbMapper.Foundation.Transition
import PbMapper.Protocol.Replay

/-!
# The guard over process restarts

A world is one guard, the log file it shares with its successors, the clock and
the fresh answers given so far.  Calls carry the outcomes of their file
operations, so that a history ranges over every failed append, rollback and
compaction; a restart opens a new guard on the log its predecessor left.

A fresh answer is remembered in two places: by the filter of the running guard
and by the log the next guard is opened on.  The invariant follows both through
every call.
-/

namespace PbMapper.Protocol

open Auth MachineWord

variable {bytes : ℕ+} {window now : ℕ}

/-! ## What one call does to the log -/

/-- The log keeps every record still inside its window, a truncated log stays
truncated, and the only new record is `record`. -/
structure Retains (window now : ℕ) (record : ReplayRecord)
    (before after : Option ReplayLog) : Prop where
  kept : ∀ file ∈ before, ∃ file' ∈ after,
    (file.torn = true → file'.torn = true) ∧
      ∀ old ∈ file.records, now ≤ old.timestamp + window → old ∈ file'.records
  added : ∀ file' ∈ after, ∀ new ∈ file'.records,
    (∃ file ∈ before, new ∈ file.records) ∨ new = record

theorem Retains.refl (record : ReplayRecord) (log : Option ReplayLog) :
    Retains window now record log log :=
  ⟨fun file hfile => ⟨file, hfile, id, fun _ hold _ => hold⟩,
    fun file hfile _ hnew => .inl ⟨file, hfile, hnew⟩⟩

theorem Retains.trans {record : ReplayRecord}
    {first second third : Option ReplayLog}
    (hfirst : Retains window now record first second)
    (hsecond : Retains window now record second third) :
    Retains window now record first third := by
  refine ⟨fun file hfile => ?_, fun file hfile new hnew => ?_⟩
  · obtain ⟨middle, hmiddle, htorn, hkept⟩ := hfirst.kept file hfile
    obtain ⟨last, hlast, htorn', hkept'⟩ := hsecond.kept middle hmiddle
    exact ⟨last, hlast, htorn' ∘ htorn, fun old hold hrecent =>
      hkept' old (hkept old hold hrecent) hrecent⟩
  · rcases hsecond.added file hfile new hnew with ⟨middle, hmiddle, hmem⟩ | heq
    · exact hfirst.added middle hmiddle new hmem
    · exact .inr heq

/-- A log that only grows by `record` retains everything. -/
theorem retains_of_grows {record : ReplayRecord} {log : Option ReplayLog}
    {file' : ReplayLog}
    (htorn : (log.getD .empty).torn = true → file'.torn = true)
    (hkept : ∀ old ∈ (log.getD .empty).records, old ∈ file'.records)
    (hadded : ∀ new ∈ file'.records,
      new ∈ (log.getD .empty).records ∨ new = record) :
    Retains window now record log (some file') := by
  refine ⟨fun file hfile => ?_, fun other hother new hnew => ?_⟩
  · rw [Option.mem_def] at hfile
    subst hfile
    exact ⟨file', rfl, htorn, fun old hold _ => hkept old hold⟩
  · obtain rfl : file' = other := by simpa using hother
    rcases hadded new hnew with hold | heq
    · cases log with
      | none => simp [ReplayLog.empty] at hold
      | some file => exact .inl ⟨file, rfl, hold⟩
    · exact .inr heq

theorem retains_getD (record : ReplayRecord) (log : Option ReplayLog) :
    Retains window now record log (some (log.getD .empty)) :=
  retains_of_grows id (fun _ hold => hold) (fun _ hnew => .inl hnew)

theorem retains_append (record : ReplayRecord) (log : Option ReplayLog) :
    Retains window now record log
      (some ((log.getD .empty).append record)) := by
  refine retains_of_grows id ?_ ?_
  · exact fun old hold => List.mem_append_left _ hold
  · intro new hnew
    rcases List.mem_append.mp hnew with hold | heq
    · exact .inl hold
    · exact .inr (List.mem_singleton.mp heq)

theorem retains_leave (record : ReplayRecord) (log : Option ReplayLog)
    (leftover : Leftover) :
    Retains window now record log
      (some ((log.getD .empty).leave record leftover)) := by
  cases leftover with
  | nothing => exact retains_getD record log
  | torn =>
      exact retains_of_grows (fun _ => rfl) (fun _ hold => hold)
        (fun _ hnew => .inl hnew)
  | whole => exact retains_append record log

theorem retains_filter (record : ReplayRecord) {log : Option ReplayLog}
    {records : List ReplayRecord}
    (hread : log.bind ReplayLog.readCompleteReplayRecords = some records) :
    Retains window now record log
      (some ⟨records.filter (ReplayGuard.recordLive window now), false⟩) := by
  obtain ⟨file, rfl, hfile⟩ := Option.bind_eq_some_iff.mp hread
  have htorn := ReplayLog.readCompleteReplayRecords_eq_some_iff.mp hfile
  refine ⟨fun other hother => ?_, fun other hother new hnew => ?_⟩
  · obtain rfl : file = other := by simpa using hother
    refine ⟨_, rfl, by simp [htorn.1], fun old hold hrecent => ?_⟩
    have hlive : ReplayGuard.recordLive window now old = true := by
      simp only [ReplayGuard.recordLive, decide_eq_true_eq]
      omega
    exact List.mem_filter.mpr ⟨htorn.2 ▸ hold, hlive⟩
  · obtain rfl := Option.some.inj hother
    exact .inl ⟨file, rfl, htorn.2 ▸ (List.mem_filter.mp hnew).1⟩

namespace ReplayGuard

/-- The parts of a guard a file operation leaves alone. -/
structure SameFilter (before after : ReplayGuard bytes) : Prop where
  bloom : after.bloom = before.bloom
  windowSeconds : after.windowSeconds = before.windowSeconds
  logPath : after.logPath = before.logPath
  logFailed : after.logFailed = false → before.logFailed = false

theorem SameFilter.refl (guard : ReplayGuard bytes) : SameFilter guard guard :=
  ⟨rfl, rfl, rfl, id⟩

theorem sameFilter_failed (guard : ReplayGuard bytes) :
    SameFilter guard { guard with logFailed := true } :=
  ⟨rfl, rfl, rfl, by simp⟩

/-- One append: a positive answer means that a guard with a log has the record
in it. -/
theorem persist_spec (window : ℕ) (guard : ReplayGuard bytes)
    (log : Option ReplayLog)
    (fingerprint : Fingerprint) (now : ℕ) (io : PersistIo) :
    let result := guard.persist log fingerprint now io
    SameFilter guard result.2.1 ∧
      Retains window now ⟨fingerprint, now⟩ log result.2.2 ∧
      (result.1 = true → guard.logFailed = false ∧
        (guard.logPath.isSome → ∃ file ∈ result.2.2,
          ⟨fingerprint, now⟩ ∈ file.records)) := by
  dsimp only
  unfold persist
  split
  · exact ⟨.refl guard, .refl _ _, by simp⟩
  rename_i hfailed
  have hfailed : guard.logFailed = false := by simpa using hfailed
  split
  · rename_i hpath
    exact ⟨.refl guard, .refl _ _, by simp [hpath, hfailed]⟩
  dsimp only
  split
  · refine ⟨.refl guard, ?_, by simp⟩
    dsimp only
    split
    · exact retains_getD _ log
    · exact .refl _ _
  split
  · split
    · exact ⟨.refl guard, retains_getD _ log, by simp⟩
    · exact ⟨sameFilter_failed guard, retains_leave _ log _, by simp⟩
  split
  · exact ⟨sameFilter_failed guard, retains_append _ log, by simp⟩
  · refine ⟨.refl guard, retains_append _ log, fun _ => ⟨hfailed, fun _ => ?_⟩⟩
    exact ⟨_, rfl, List.mem_append_right _ (List.mem_singleton_self _)⟩

theorem compact_spec {guard : ReplayGuard bytes}
    (hwindow : guard.windowSeconds = window) (log : Option ReplayLog)
    (now : ℕ) (io : CompactIo) (record : ReplayRecord) :
    SameFilter guard (guard.compact log now io).1 ∧
      Retains window now record log (guard.compact log now io).2 := by
  subst hwindow
  unfold compact
  split
  · exact ⟨⟨rfl, rfl, rfl, id⟩, .refl _ _⟩
  split
  · rename_i records hread _
    dsimp only
    split
    · exact ⟨sameFilter_failed guard, .refl _ _⟩
    · exact ⟨sameFilter_failed guard, retains_filter record hread⟩
    · exact ⟨⟨rfl, rfl, rfl, id⟩, retains_filter record hread⟩
  · exact ⟨sameFilter_failed guard, .refl _ _⟩

/-- What `admit` and `claim` have in common: the filter is rotated by the
lookup; a fresh answer means that the lookup missed, that the fingerprint was
inserted, and that a guard with a log has it on disk. -/
structure CallSpec (guard : ReplayGuard bytes) (log : Option ReplayLog)
    (fingerprint : Fingerprint) (now : ℕ)
    (result : FirstFlightAdmit × ReplayGuard bytes × Option ReplayLog) :
    Prop where
  windowSeconds : result.2.1.windowSeconds = guard.windowSeconds
  logPath : result.2.1.logPath = guard.logPath
  logFailed : result.2.1.logFailed = false → guard.logFailed = false
  retains : Retains guard.windowSeconds now ⟨fingerprint, now⟩ log result.2.2
  bloom : result.1 ≠ .fresh → result.2.1.bloom = guard.bloom.rotate now
  missed : result.1 = .fresh → guard.logFailed = false ∧
    (guard.bloom.contains fingerprint now).1 = false
  inserted : result.1 = .fresh →
    result.2.1.bloom = (guard.bloom.rotate now).insert fingerprint now
  durable : result.1 = .fresh → guard.logPath.isSome →
    ∃ file ∈ result.2.2,
      file.torn = true ∨ ⟨fingerprint, now⟩ ∈ file.records

/-- An answer given after the lookup alone. -/
theorem callSpec_of_lookup {guard guard' : ReplayGuard bytes}
    {log : Option ReplayLog} {fingerprint : Fingerprint}
    {answer : FirstFlightAdmit} (hanswer : answer ≠ .fresh)
    (hwindow : guard'.windowSeconds = guard.windowSeconds)
    (hpath : guard'.logPath = guard.logPath)
    (hfailed : guard'.logFailed = guard.logFailed)
    (hbloom : guard'.bloom = guard.bloom.rotate now) :
    CallSpec guard log fingerprint now (answer, guard', log) where
  windowSeconds := hwindow
  logPath := hpath
  logFailed := fun h => hfailed ▸ h
  retains := .refl _ _
  bloom := fun _ => hbloom
  missed := fun h => absurd h hanswer
  inserted := fun h => absurd h hanswer
  durable := fun h => absurd h hanswer

/-- `reserve` on the guard the lookup left. -/
theorem callSpec_reserve {guard looked : ReplayGuard bytes}
    (log : Option ReplayLog) {fingerprint : Fingerprint} (io : PersistIo)
    (hmissed : (guard.bloom.contains fingerprint now).1 = false)
    (hwindow : looked.windowSeconds = guard.windowSeconds)
    (hpath : looked.logPath = guard.logPath)
    (hfailed : looked.logFailed = guard.logFailed)
    (hbloom : looked.bloom = guard.bloom.rotate now) :
    CallSpec guard log fingerprint now
      (looked.reserve log fingerprint now io) := by
  obtain ⟨hsame, hretains, hok⟩ :=
    persist_spec guard.windowSeconds looked log fingerprint now io
  unfold reserve
  revert hsame hretains hok
  rcases looked.persist log fingerprint now io with ⟨_ | _, after, log'⟩
  · intro hsame hretains _
    exact {
      windowSeconds := hsame.windowSeconds.trans hwindow
      logPath := hsame.logPath.trans hpath
      logFailed := fun h => hfailed ▸ hsame.logFailed h
      retains := hretains
      bloom := fun _ => hsame.bloom.trans hbloom
      missed := nofun
      inserted := nofun
      durable := nofun }
  · intro hsame hretains hok
    obtain ⟨hopen, hrecord⟩ := hok rfl
    exact {
      windowSeconds := hsame.windowSeconds.trans hwindow
      logPath := hsame.logPath.trans hpath
      logFailed := fun _ => hfailed ▸ hopen
      retains := hretains
      bloom := fun h => absurd rfl h
      missed := fun _ => ⟨hfailed ▸ hopen, hmissed⟩
      inserted := fun _ => by
        dsimp only
        rw [hsame.bloom, hbloom]
      durable := fun _ hsome => by
        obtain ⟨file, hfile, hmem⟩ := hrecord (by rwa [hpath])
        exact ⟨file, hfile, .inr hmem⟩ }

/-- A file operation after a fresh answer. -/
theorem CallSpec.after {guard after after' : ReplayGuard bytes}
    {log log' log'' : Option ReplayLog} {fingerprint : Fingerprint}
    (hspec : CallSpec guard log fingerprint now (.fresh, after, log'))
    (hsame : SameFilter after after')
    (hretains : Retains guard.windowSeconds now ⟨fingerprint, now⟩ log' log'') :
    CallSpec guard log fingerprint now (.fresh, after', log'') where
  windowSeconds := hsame.windowSeconds.trans hspec.windowSeconds
  logPath := hsame.logPath.trans hspec.logPath
  logFailed := fun h => hspec.logFailed (hsame.logFailed h)
  retains := hspec.retains.trans hretains
  bloom := fun h => absurd rfl h
  missed := hspec.missed
  inserted := fun h => hsame.bloom.trans (hspec.inserted h)
  durable := fun h hsome => by
    obtain ⟨file, hfile, hrecord⟩ := hspec.durable h hsome
    obtain ⟨file', hfile', htorn, hkept⟩ := hretains.kept file hfile
    exact ⟨file', hfile',
      hrecord.imp htorn fun hmem => hkept _ hmem (Nat.le_add_right _ _)⟩

/-- The guard a lookup leaves when it answers from the budgets. -/
theorem rotateCounts_fields (guard : ReplayGuard bytes) (now : ℕ) :
    (guard.rotateCounts now).bloom = guard.bloom ∧
      (guard.rotateCounts now).windowSeconds = guard.windowSeconds ∧
      (guard.rotateCounts now).logPath = guard.logPath ∧
      (guard.rotateCounts now).logFailed = guard.logFailed := by
  unfold rotateCounts
  split <;> exact ⟨rfl, rfl, rfl, rfl⟩

theorem resetTotalIfRotated_fields (guard : ReplayGuard bytes) :
    guard.resetTotalIfRotated.bloom = guard.bloom ∧
      guard.resetTotalIfRotated.windowSeconds = guard.windowSeconds ∧
      guard.resetTotalIfRotated.logPath = guard.logPath ∧
      guard.resetTotalIfRotated.logFailed = guard.logFailed := by
  unfold resetTotalIfRotated
  split <;> exact ⟨rfl, rfl, rfl, rfl⟩

theorem claim_spec (guard : ReplayGuard bytes) (log : Option ReplayLog)
    (fingerprint : Fingerprint) (now : ℕ) (io : PersistIo) :
    CallSpec guard log fingerprint now
      (guard.claim log fingerprint now io) := by
  unfold claim
  split
  · rename_i bloom hlookup
    have hbloom : bloom = guard.bloom.rotate now := by
      rw [← RotatingBloom.contains_snd _ fingerprint, hlookup]
    exact callSpec_of_lookup (by decide) rfl rfl rfl hbloom
  rename_i bloom hlookup
  have hbloom : bloom = guard.bloom.rotate now := by
    rw [← RotatingBloom.contains_snd _ fingerprint, hlookup]
  obtain ⟨hbloom', hwindow, hpath, hfailed⟩ :=
    resetTotalIfRotated_fields { guard with bloom := bloom }
  have hlooked := hbloom'.trans hbloom
  dsimp only
  split
  · exact callSpec_of_lookup (by decide) hwindow hpath hfailed hlooked
  · exact callSpec_reserve log io (by rw [hlookup]) hwindow hpath hfailed hlooked

theorem admit_spec (guard : ReplayGuard bytes) (log : Option ReplayLog)
    (keyId : KeyId) (fingerprint : Fingerprint) (now : ℕ) (io : PersistIo)
    (compactIo : CompactIo) :
    CallSpec guard log fingerprint now
      (guard.admitFresh log keyId fingerprint now io compactIo) := by
  obtain ⟨hcounts, hwindow, hpath, hfailed⟩ := rotateCounts_fields guard now
  unfold admitFresh
  dsimp only
  rw [hcounts]
  split
  · rename_i bloom hlookup
    have hbloom : bloom = guard.bloom.rotate now := by
      rw [← RotatingBloom.contains_snd _ fingerprint, hlookup]
    exact callSpec_of_lookup (by decide) hwindow hpath hfailed hbloom
  rename_i bloom hlookup
  have hbloom : bloom = guard.bloom.rotate now := by
    rw [← RotatingBloom.contains_snd _ fingerprint, hlookup]
  obtain ⟨hbloom', hwindow', hpath', hfailed'⟩ :=
    resetTotalIfRotated_fields { guard.rotateCounts now with bloom := bloom }
  have hlooked := hbloom'.trans hbloom
  split
  · exact callSpec_of_lookup (by decide) (hwindow'.trans hwindow)
      (hpath'.trans hpath) (hfailed'.trans hfailed) hlooked
  have hreserve := callSpec_reserve log io (by rw [hlookup])
    (hwindow'.trans hwindow) (hpath'.trans hpath) (hfailed'.trans hfailed)
    hlooked
  split
  · rename_i after log' hresult
    rw [hresult] at hreserve
    have hcounted : CallSpec guard log fingerprint now
        (.fresh, after.countKey keyId, log') :=
      hreserve.after ⟨rfl, rfl, rfl, id⟩ (.refl _ log')
    split
    · obtain ⟨hsame, hretains⟩ := compact_spec hcounted.windowSeconds log' now
        compactIo ⟨fingerprint, now⟩
      exact hcounted.after hsame hretains
    · exact hcounted
  · exact hreserve

/-! ## What opening a guard does -/

/-- A log whose newest possible record, stamped in the second of the load, is
not as far from another live record as the window is wide. -/
def Separated (window : ℕ) (log : Option ReplayLog) (now : ℕ) : Prop :=
  ∀ file ∈ log, file.torn = false →
    ∀ old ∈ file.records, ∀ new ∈ file.records,
      old.timestamp + window = now → new.timestamp ≠ now

instance (window : ℕ) (log : Option ReplayLog) (now : ℕ) :
    Decidable (Separated window log now) :=
  inferInstanceAs (Decidable (∀ file ∈ log, file.torn = false →
    ∀ old ∈ file.records, ∀ new ∈ file.records,
      old.timestamp + window = now → new.timestamp ≠ now))

/-- The memory a load refills: the live records as one generation, started at
the oldest of them. -/
theorem loadPersisted_memory (guard : ReplayGuard bytes)
    {records : List ReplayRecord} (hwindow : 0 < window)
    (hbloom : guard.bloom.windowSeconds = window)
    (hstamped : ∀ record ∈ records, record.timestamp ≤ now)
    (hstarted : ∀ record ∈ records,
      record.timestamp ≤ guard.bloom.currentStartedAt)
    (hseparated : ∀ old ∈ records, ∀ new ∈ records,
      old.timestamp + window = now → new.timestamp ≠ now) :
    let live := records.filter (recordLive window now)
    let bloom := live.foldl
      (fun bloom record => bloom.insert record.fingerprint record.timestamp)
      guard.bloom
    let bloom :=
      match (live.map ReplayRecord.timestamp).min? with
      | some oldest => { bloom with currentStartedAt := oldest }
      | none => bloom
    ∃ memory : RotatingWindow Fingerprint,
      bloom.Refines memory ∧ memory.Timely window ∧
        ∀ record ∈ live,
          (record.fingerprint, record.timestamp) ∈ memory.entries := by
  intro live bloom collapsed
  have hmem : ∀ record ∈ live, record ∈ records ∧
      now ≤ record.timestamp + window := by
    intro record hrecord
    obtain ⟨hrecords, hlive⟩ := List.mem_filter.mp hrecord
    simp only [recordLive, decide_eq_true_eq] at hlive
    exact ⟨hrecords, by omega⟩
  obtain ⟨hstart, _, hfound⟩ := RotatingBloom.foldl_insert_spec live guard.bloom
    fun record hrecord => by
      have := hstarted record (hmem record hrecord).1
      omega
  cases hmin : (live.map ReplayRecord.timestamp).min? with
  | none =>
      have hnil : live = [] := by simpa using hmin
      refine ⟨⟨∅, ∅, bloom.currentStartedAt⟩, ?_, ⟨by simp, by simp⟩, ?_⟩
      · simpa only [collapsed, hmin] using bloom.refines_empty
      · simp [hnil]
  | some oldest =>
      obtain ⟨holdest, hle⟩ := List.min?_eq_some_iff.mp hmin
      obtain ⟨first, hfirst, rfl⟩ := List.mem_map.mp holdest
      let stamped : Set (Fingerprint × ℕ) :=
        {entry | ∃ record ∈ live,
          (record.fingerprint, record.timestamp) = entry}
      refine ⟨.restored stamped first.timestamp, ?_,
        RotatingWindow.timely_restored ?_, ?_⟩
      · simp only [collapsed, hmin]
        refine ⟨?_, by simp [RotatingWindow.restored], rfl⟩
        rintro entry ⟨record, hrecord, rfl⟩
        exact hfound record hrecord
      · rintro entry ⟨record, hrecord, rfl⟩
        have hnow := hstamped record (hmem record hrecord).1
        have hlive := (hmem first hfirst).2
        by_contra hlate
        have hboundary : first.timestamp + window = now := by
          dsimp only at hlate
          omega
        refine hseparated first (hmem first hfirst).1 record
          (hmem record hrecord).1 hboundary ?_
        dsimp only at hlate
        omega
      · exact fun record hrecord => .inl ⟨record, hrecord, rfl⟩

theorem open_fields (bytes : ℕ+) (logPath : Option String) (window : ℕ)
    (configured : Option ℕ) (clock : OpenClock) (log : Option ReplayLog)
    (io : CompactIo) :
    let guard := (ReplayGuard.open bytes logPath window configured clock log io).1
    guard.windowSeconds = window ∧ guard.bloom.windowSeconds = window ∧
      guard.logPath = logPath := by
  dsimp only [ReplayGuard.open]
  unfold loadPersisted
  split
  · exact ⟨rfl, rfl, rfl⟩
  · exact ⟨rfl, rfl, rfl⟩
  split
  · dsimp only
    cases io.rewrite <;> refine ⟨rfl, ?_, rfl⟩ <;> dsimp only <;> split <;>
      exact RotatingBloom.foldl_insert_windowSeconds _ _
  · exact ⟨rfl, rfl, rfl⟩

theorem open_retains (bytes : ℕ+) (logPath : Option String) (window : ℕ)
    (configured : Option ℕ) (clock : OpenClock) (log : Option ReplayLog)
    (io : CompactIo) (record : ReplayRecord) :
    Retains window clock.load record log
      (ReplayGuard.open bytes logPath window configured clock log io).2 := by
  dsimp only [ReplayGuard.open]
  unfold loadPersisted
  split
  · exact .refl _ _
  · exact .refl _ _
  split
  · rename_i records hread _
    dsimp only
    split
    · exact .refl _ _
    · exact retains_filter record hread
    · exact retains_filter record hread
  · exact .refl _ _

/-- A guard that opened without latching a failure remembers every live record
of its log for one window. -/
theorem open_memory {path : String} {configured : Option ℕ}
    {clock : OpenClock} {log : Option ReplayLog} {io : CompactIo}
    (hwindow : 0 < window) (hclock : clock.bloom ≤ clock.load)
    (hstamped : ∀ file ∈ log, ∀ record ∈ file.records,
      record.timestamp ≤ clock.bloom)
    (hseparated : io.Loads → Separated window log clock.load)
    (hopen : (ReplayGuard.open bytes (some path) window configured clock log
      io).1.logFailed = false) :
    ∃ memory : RotatingWindow Fingerprint,
      (ReplayGuard.open bytes (some path) window configured clock log
        io).1.bloom.Refines memory ∧
      memory.Timely window ∧
      ∀ file ∈ log, ∀ record ∈ file.records,
        clock.load ≤ record.timestamp + window →
          (record.fingerprint, record.timestamp) ∈ memory.entries := by
  revert hopen
  dsimp only [ReplayGuard.open]
  unfold loadPersisted
  cases log with
  | none =>
      intro _
      exact ⟨_, RotatingBloom.refines_empty _, ⟨by simp, by simp⟩, by simp⟩
  | some file =>
      dsimp only
      split
      · rename_i records hread hreadable
        obtain ⟨htorn, hrecords⟩ :=
          ReplayLog.readCompleteReplayRecords_eq_some_iff.mp hread
        have hstamped' : ∀ record ∈ records, record.timestamp ≤ clock.bloom :=
          hrecords ▸ hstamped file rfl
        intro hopen
        have hloads : io.Loads := by
          refine ⟨hreadable, ?_⟩
          cases hrewrite : io.rewrite <;> simp [hrewrite] at hopen ⊢
        have hseparated' := hseparated hloads file rfl htorn
        rw [hrecords] at hseparated'
        obtain ⟨memory, hrefines, htimely, hentries⟩ :=
          loadPersisted_memory
            { (ReplayGuard.open bytes none window configured clock
              none io).1 with bloom := .new bytes window clock.bloom }
            hwindow rfl (fun record hrecord =>
              (hstamped' record hrecord).trans hclock)
            hstamped' hseparated'
        refine ⟨memory, ?_, htimely, ?_⟩
        · cases io.rewrite <;> exact hrefines
        · intro other hother record hrecord hrecent
          obtain rfl : file = other := by simpa using hother
          refine hentries record (List.mem_filter.mpr
            ⟨hrecords ▸ hrecord, ?_⟩)
          simp only [recordLive, decide_eq_true_eq]
          omega
      · intro hfailed
        cases hfailed

/-- A guard opened on a truncated log answers nothing fresh. -/
theorem open_torn {path : String} {configured : Option ℕ} {clock : OpenClock}
    {log : Option ReplayLog} {io : CompactIo} {file : ReplayLog}
    (hfile : file ∈ log) (htorn : file.torn = true) :
    ¬(ReplayGuard.open bytes (some path) window configured clock log
      io).1.logFailed = false := by
  obtain rfl : log = some file := hfile
  have hread : file.readCompleteReplayRecords = none := by
    simp [ReplayLog.readCompleteReplayRecords, htorn]
  simp [ReplayGuard.open, loadPersisted, hread]

end ReplayGuard

/-! ## Histories -/

/-- The running guard, the log on disk, the latest clock reading and the fresh
answers so far, newest first. -/
structure ReplayWorld (bytes : ℕ+) where
  guard : ReplayGuard bytes
  log : Option ReplayLog
  clock : ℕ
  answered : List (Fingerprint × ℕ)

inductive ReplayCall where
  | admitFresh (keyId : KeyId) (fingerprint : Fingerprint) (now : ℕ)
      (io : PersistIo) (compactIo : CompactIo)
  | claim (fingerprint : Fingerprint) (now : ℕ) (io : PersistIo)
  /-- The process ends and its successor opens the log it left. -/
  | restart (configured : Option ℕ) (clock : ReplayGuard.OpenClock)
      (io : CompactIo)

namespace ReplayWorld

/-- The world after one answered call. -/
def answer (world : ReplayWorld bytes) (fingerprint : Fingerprint) (now : ℕ)
    (result : FirstFlightAdmit × ReplayGuard bytes × Option ReplayLog) :
    ReplayWorld bytes where
  guard := result.2.1
  log := result.2.2
  clock := now
  answered :=
    if result.1 = .fresh then (fingerprint, now) :: world.answered
    else world.answered

/-- Calls happen at non-decreasing clock readings; only a guard with a log
leaves one to a successor. -/
def step (window : ℕ) (world : ReplayWorld bytes) :
    ReplayCall → Option (ReplayWorld bytes)
  | .admitFresh keyId fingerprint now io compactIo =>
      if world.clock ≤ now then
        some (world.answer fingerprint now
          (world.guard.admitFresh world.log keyId fingerprint now io compactIo))
      else none
  | .claim fingerprint now io =>
      if world.clock ≤ now then
        some (world.answer fingerprint now
          (world.guard.claim world.log fingerprint now io))
      else none
  | .restart configured clock io =>
      if world.guard.logPath.isSome ∧ world.clock ≤ clock.opened ∧
          clock.opened ≤ clock.bloom ∧ clock.bloom ≤ clock.load then
        let opened := ReplayGuard.open bytes world.guard.logPath window
          configured clock world.log io
        some { guard := opened.1, log := opened.2, clock := clock.load,
               answered := world.answered }
      else none

/-- A guard just opened, with or without a log, on whatever an earlier process
has left there. -/
def Initial (window : ℕ) (world : ReplayWorld bytes) : Prop :=
  ∃ logPath configured clock log io,
    clock.opened ≤ clock.bloom ∧ clock.bloom ≤ clock.load ∧
    (∀ file ∈ log, ∀ record ∈ file.records,
      record.timestamp ≤ clock.opened) ∧
    world.guard =
      (ReplayGuard.open bytes logPath window configured clock log io).1 ∧
    world.log =
      (ReplayGuard.open bytes logPath window configured clock log io).2 ∧
    world.clock = clock.load ∧ world.answered = []

end ReplayWorld

/-- Guards with filters of `bytes` bytes and windows of `window` seconds. -/
def replaySystem (bytes : ℕ+) (window : ℕ) :
    Transition.System (ReplayWorld bytes) ReplayCall :=
  .ofPartial (ReplayWorld.Initial window) (ReplayWorld.step window)

/-- No fingerprint is answered fresh twice within one window, the boundary
included. -/
def NoEarlyRepeat (window : ℕ) (answered : List (Fingerprint × ℕ)) : Prop :=
  answered.Pairwise fun newer older =>
    newer.1 = older.1 → older.2 + window < newer.2

/-- The steps at which the guard keeps its promise: the window is positive, the
doubled window is not cut off, and a restart that loads its log does not find
both a record stamped in this very second and one stamped exactly one window
earlier. -/
def KeepsWindow (window : ℕ) (world : ReplayWorld bytes) : ReplayCall → Prop
  | .admitFresh _ _ now _ _ => 0 < window ∧ ClockFits window now
  | .claim _ now _ => 0 < window ∧ ClockFits window now
  | .restart _ clock io =>
      0 < window ∧
        (io.Loads → ReplayGuard.Separated window world.log clock.load)

instance (window : ℕ) (world : ReplayWorld bytes) (call : ReplayCall) :
    Decidable (KeepsWindow window world call) :=
  match call with
  | .admitFresh .. => inferInstanceAs (Decidable (_ ∧ _))
  | .claim .. => inferInstanceAs (Decidable (_ ∧ _))
  | .restart .. => inferInstanceAs (Decidable (_ ∧ (_ → _)))

/-! ## The invariant -/

/-- Every fresh answer still inside its window is in the filter of a guard that
can answer, and in the log. -/
structure ReplayInvariant (window : ℕ) (world : ReplayWorld bytes) :
    Prop where
  windowSeconds : world.guard.windowSeconds = window
  bloomWindow : world.guard.bloom.windowSeconds = window
  stamped : ∀ file ∈ world.log, ∀ record ∈ file.records,
    record.timestamp ≤ world.clock
  remembered : world.guard.logFailed = false →
    ∃ memory : RotatingWindow Fingerprint,
      world.guard.bloom.Refines memory ∧ memory.Timely window ∧
        ∀ entry ∈ world.answered, world.clock ≤ entry.2 + window →
          entry ∈ memory.entries
  durable : world.guard.logPath.isSome →
    ∀ entry ∈ world.answered, world.clock ≤ entry.2 + window →
      ∃ file ∈ world.log, file.torn = true ∨ ⟨entry.1, entry.2⟩ ∈ file.records
  noEarlyRepeat : NoEarlyRepeat window world.answered

theorem replayInvariant_initial {world : ReplayWorld bytes}
    (hinitial : world.Initial window) : ReplayInvariant window world := by
  obtain ⟨logPath, configured, clock, log, io, hopened, hbloom, hstamped,
    hguard, hlog, hclock, hanswered⟩ := hinitial
  obtain ⟨hwindow, hbloomWindow, -⟩ := ReplayGuard.open_fields bytes
    logPath window configured clock log io
  refine ⟨hguard ▸ hwindow, hguard ▸ hbloomWindow, ?_, ?_, ?_, ?_⟩
  · intro file hfile record hrecord
    rw [hlog] at hfile
    rw [hclock]
    rcases (ReplayGuard.open_retains bytes logPath window configured clock log io
      ⟨default, clock.load⟩).added file hfile record hrecord with
      ⟨before, hbefore, hmem⟩ | rfl
    · exact ((hstamped before hbefore record hmem).trans hopened).trans hbloom
    · exact le_rfl
  · intro _
    refine ⟨_, RotatingBloom.refines_empty _, ⟨by simp, by simp⟩, ?_⟩
    simp [hanswered]
  · simp [hanswered]
  · simp [NoEarlyRepeat, hanswered]

/-- A call whose answer meets its specification keeps the invariant. -/
theorem replayInvariant_answer {world : ReplayWorld bytes}
    {fingerprint : Fingerprint}
    {result : FirstFlightAdmit × ReplayGuard bytes × Option ReplayLog}
    (hinv : ReplayInvariant window world) (hpositive : 0 < window)
    (hfits : ClockFits window now) (hclock : world.clock ≤ now)
    (hspec : world.guard.CallSpec world.log fingerprint now result) :
    ReplayInvariant window (world.answer fingerprint now result) := by
  have hretains := hspec.retains
  rw [hinv.windowSeconds] at hretains
  have hdurable : world.guard.logPath.isSome →
      ∀ entry ∈ world.answered, now ≤ entry.2 + window →
        ∃ file ∈ result.2.2,
          file.torn = true ∨ ⟨entry.1, entry.2⟩ ∈ file.records := by
    intro hsome entry hentry hrecent
    obtain ⟨file, hfile, hrecord⟩ :=
      hinv.durable hsome entry hentry (hclock.trans hrecent)
    obtain ⟨file', hfile', htorn, hkept⟩ := hretains.kept file hfile
    exact ⟨file', hfile', hrecord.imp htorn fun hmem => hkept _ hmem hrecent⟩
  have hmissed : result.1 = .fresh → ∀ entry ∈ world.answered,
      fingerprint = entry.1 → entry.2 + window < now := by
    rintro hfresh entry hentry rfl
    obtain ⟨hopen, hlookup⟩ := hspec.missed hfresh
    obtain ⟨memory, hrefines, htimely, hentries⟩ := hinv.remembered hopen
    by_contra hrecent
    have hkept : entry ∈ (memory.rotate window now).entries :=
      RotatingWindow.mem_entries_rotate hpositive htimely
        (hentries entry hentry (by omega)) (by omega)
    have hfound := hrefines.contains_of_mem hinv.bloomWindow hfits hkept
    rw [hlookup] at hfound
    cases hfound
  refine ⟨hspec.windowSeconds.trans hinv.windowSeconds, ?_, ?_, ?_, ?_, ?_⟩
  · by_cases hfresh : result.1 = .fresh
    · simp [ReplayWorld.answer, hspec.inserted hfresh, hinv.bloomWindow]
    · simp [ReplayWorld.answer, hspec.bloom hfresh, hinv.bloomWindow]
  · intro file hfile record hrecord
    rcases hretains.added file hfile record hrecord with
      ⟨before, hbefore, hmem⟩ | rfl
    · exact (hinv.stamped before hbefore record hmem).trans hclock
    · exact le_rfl
  · intro hopen
    obtain ⟨memory, hrefines, htimely, hentries⟩ :=
      hinv.remembered (hspec.logFailed hopen)
    have hrotate := hrefines.rotate hinv.bloomWindow hfits
    have hkept : ∀ entry ∈ world.answered, now ≤ entry.2 + window →
        entry ∈ (memory.rotate window now).entries :=
      fun entry hentry hrecent => RotatingWindow.mem_entries_rotate hpositive
        htimely (hentries entry hentry (hclock.trans hrecent)) hrecent
    by_cases hfresh : result.1 = .fresh
    · have hrotated : (world.guard.bloom.rotate now).windowSeconds = window := by
        simp [hinv.bloomWindow]
      refine ⟨((memory.rotate window now).rotate window now).record
        (fingerprint, now), ?_, ?_, ?_⟩
      · simpa only [ReplayWorld.answer, hspec.inserted hfresh] using
          hrotate.insert hrotated hfits
      · exact htimely.rotate.rotate.record
          (RotatingWindow.now_lt_rotate hpositive)
      · simp only [ReplayWorld.answer, hfresh, if_true, List.mem_cons]
        rintro entry (rfl | hentry) hrecent
        · exact RotatingWindow.mem_entries_record_self
        · exact RotatingWindow.mem_entries_record_of_mem
            (RotatingWindow.mem_entries_rotate hpositive htimely.rotate
              (hkept entry hentry hrecent) hrecent)
    · refine ⟨memory.rotate window now, ?_, htimely.rotate, ?_⟩
      · simpa only [ReplayWorld.answer, hspec.bloom hfresh] using hrotate
      · simpa only [ReplayWorld.answer, hfresh, if_false] using hkept
  · intro hsome entry hentry hrecent
    have hsome' : world.guard.logPath.isSome := hspec.logPath ▸ hsome
    by_cases hfresh : result.1 = .fresh
    · simp only [ReplayWorld.answer, hfresh, if_true, List.mem_cons] at hentry
      rcases hentry with rfl | hentry
      · exact hspec.durable hfresh hsome'
      · exact hdurable hsome' entry hentry hrecent
    · simp only [ReplayWorld.answer, hfresh, if_false] at hentry
      exact hdurable hsome' entry hentry hrecent
  · by_cases hfresh : result.1 = .fresh
    · simp only [NoEarlyRepeat, ReplayWorld.answer, hfresh, if_true,
        List.pairwise_cons]
      exact ⟨hmissed hfresh, hinv.noEarlyRepeat⟩
    · simpa only [ReplayWorld.answer, hfresh, if_false] using
        hinv.noEarlyRepeat

theorem replayInvariant_restart {world : ReplayWorld bytes} {path : String}
    {configured : Option ℕ} {clock : ReplayGuard.OpenClock} {io : CompactIo}
    (hinv : ReplayInvariant window world) (hpositive : 0 < window)
    (hpath : world.guard.logPath = some path)
    (hclock : world.clock ≤ clock.opened) (hopened : clock.opened ≤ clock.bloom)
    (hload : clock.bloom ≤ clock.load)
    (hseparated : io.Loads →
      ReplayGuard.Separated window world.log clock.load) :
    let opened := ReplayGuard.open bytes (some path) window configured clock
      world.log io
    ReplayInvariant window
      { guard := opened.1, log := opened.2, clock := clock.load,
        answered := world.answered } := by
  intro opened
  obtain ⟨hwindow, hbloomWindow, -⟩ := ReplayGuard.open_fields bytes
    (some path) window configured clock world.log io
  have hretains := ReplayGuard.open_retains bytes (some path) window
    configured clock world.log io ⟨default, clock.load⟩
  have hsome : world.guard.logPath.isSome := by simp [hpath]
  have hdurable : ∀ entry ∈ world.answered,
      clock.load ≤ entry.2 + window → ∃ file ∈ world.log,
        file.torn = true ∨ ⟨entry.1, entry.2⟩ ∈ file.records :=
    fun entry hentry hrecent => hinv.durable hsome entry hentry (by omega)
  refine ⟨hwindow, hbloomWindow, ?_, ?_, ?_, hinv.noEarlyRepeat⟩
  · intro file hfile record hrecord
    rcases hretains.added file hfile record hrecord with
      ⟨before, hbefore, hmem⟩ | rfl
    · have := hinv.stamped before hbefore record hmem
      dsimp only
      omega
    · exact le_rfl
  · intro hopen
    obtain ⟨memory, hrefines, htimely, hentries⟩ :=
      ReplayGuard.open_memory hpositive hload
        (fun file hfile record hrecord =>
          ((hinv.stamped file hfile record hrecord).trans hclock).trans hopened)
        hseparated hopen
    refine ⟨memory, hrefines, htimely, fun entry hentry hrecent => ?_⟩
    obtain ⟨file, hfile, htorn | hmem⟩ := hdurable entry hentry hrecent
    · exact absurd hopen (ReplayGuard.open_torn hfile htorn)
    · exact hentries file hfile _ hmem hrecent
  · intro _ entry hentry hrecent
    obtain ⟨file, hfile, hrecord⟩ := hdurable entry hentry hrecent
    obtain ⟨file', hfile', htorn, hkept⟩ := hretains.kept file hfile
    exact ⟨file', hfile', hrecord.imp htorn fun hmem => hkept _ hmem hrecent⟩

theorem replayInvariant_step {world next : ReplayWorld bytes}
    {call : ReplayCall} (hinv : ReplayInvariant window world)
    (hkeeps : KeepsWindow window world call)
    (hstep : world.step window call = some next) :
    ReplayInvariant window next := by
  cases call with
  | admitFresh keyId fingerprint now io compactIo =>
      simp only [ReplayWorld.step, Option.ite_none_right_eq_some] at hstep
      obtain ⟨hclock, hnext⟩ := hstep
      rw [← Option.some.inj hnext]
      exact replayInvariant_answer hinv hkeeps.1 hkeeps.2 hclock
        (world.guard.admit_spec _ _ _ _ _ _)
  | claim fingerprint now io =>
      simp only [ReplayWorld.step, Option.ite_none_right_eq_some] at hstep
      obtain ⟨hclock, hnext⟩ := hstep
      rw [← Option.some.inj hnext]
      exact replayInvariant_answer hinv hkeeps.1 hkeeps.2 hclock
        (world.guard.claim_spec _ _ _ _)
  | restart configured clock io =>
      simp only [ReplayWorld.step, Option.ite_none_right_eq_some] at hstep
      obtain ⟨⟨hsome, hclock, hopened, hload⟩, hnext⟩ := hstep
      obtain ⟨path, hpath⟩ := Option.isSome_iff_exists.mp hsome
      rw [hpath] at hnext
      rw [← Option.some.inj hnext]
      exact replayInvariant_restart hinv hkeeps.1 hpath hclock hopened hload
        hkeeps.2

/-- Over every history whose steps keep the window, restarts included, a
fingerprint answered fresh is not answered fresh again within its window. -/
theorem noEarlyRepeat_of_reachable {world : ReplayWorld bytes}
    (hreachable :
      ((replaySystem bytes window).restrict (KeepsWindow window)).Reachable
        world) :
    NoEarlyRepeat window world.answered := by
  refine (hreachable.invariant (motive := ReplayInvariant window) ?_
    ?_).noEarlyRepeat
  · exact fun _ hinitial => replayInvariant_initial hinitial
  · exact fun _ _ _ hinv hstep => replayInvariant_step hinv hstep.1 hstep.2

/-! ## The boundary -/

/-- File operations that all succeed. -/
def PersistIo.success : PersistIo where
  opened := true
  createdEmpty := false
  appended := true
  rolledBack := true
  leftover := .nothing
  parentSynced := true

def CompactIo.success : CompactIo := ⟨true, .replaced⟩

/-- A guard opened at second 0 on an empty directory. -/
def ReplayWorld.fresh (bytes : ℕ+) (window : ℕ) : ReplayWorld bytes :=
  let opened := ReplayGuard.open bytes (some "connection.replay") window none
    ⟨0, 0, 0⟩ none .success
  { guard := opened.1, log := opened.2, clock := 0, answered := [] }

theorem ReplayWorld.initial_fresh (bytes : ℕ+) (window : ℕ) :
    (ReplayWorld.fresh bytes window).Initial window :=
  ⟨_, none, ⟨0, 0, 0⟩, none, .success, le_rfl, le_rfl, by simp, rfl, rfl, rfl,
    rfl⟩

/-- One record keeps an old one company exactly one window later; the restart in
that second starts the refilled generation at the old record, and the new one is
forgotten at the boundary of its window. -/
def boundaryHistory (first second : Fingerprint) : List ReplayCall :=
  [.admitFresh adminKeyId first 0 .success .success,
    .admitFresh adminKeyId second 600 .success .success,
    .restart none ⟨600, 600, 600⟩ .success,
    .admitFresh adminKeyId second 1200 .success .success]

theorem boundaryHistory_repeats :
    ∃ world, (replaySystem 4 600).Reachable world ∧
      ¬NoEarlyRepeat 600 world.answered := by
  have hrun :
      ((boundaryHistory (.replicate 32 0) (.replicate 32 1)).foldlM
        (ReplayWorld.step 600) (.fresh 4 600)).map ReplayWorld.answered =
      some [(.replicate 32 1, 1200), (.replicate 32 1, 600),
        (.replicate 32 0, 0)] := by
    decide +kernel
  obtain ⟨world, hfold, hanswered⟩ := Option.map_eq_some_iff.mp hrun
  refine ⟨world, Transition.System.reachable_of_foldlM
    (fun _ _ _ hstep => hstep) (ReplayWorld.initial_fresh 4 600) hfold, ?_⟩
  simp [hanswered, NoEarlyRepeat]

/-- The same history with the restart one second later keeps its promise. -/
theorem noEarlyRepeat_later_restart :
    ∃ world : ReplayWorld 4, world.answered.length = 2 ∧
      NoEarlyRepeat 600 world.answered := by
  let history : List ReplayCall :=
    [.admitFresh adminKeyId (.replicate 32 0) 0 .success .success,
      .admitFresh adminKeyId (.replicate 32 1) 600 .success .success,
      .restart none ⟨601, 601, 601⟩ .success,
      .admitFresh adminKeyId (.replicate 32 1) 1200 .success .success]
  have hrun :
      (history.foldlM (Transition.System.checked (KeepsWindow 600)
        (ReplayWorld.step 600)) (.fresh 4 600)).map
          (fun world => world.answered.length) = some 2 := by
    decide +kernel
  obtain ⟨world, hfold, hlength⟩ := Option.map_eq_some_iff.mp hrun
  exact ⟨world, hlength, noEarlyRepeat_of_reachable
    (Transition.System.reachable_of_foldlM Transition.System.checked_sound
      (ReplayWorld.initial_fresh 4 600) hfold)⟩

end PbMapper.Protocol
